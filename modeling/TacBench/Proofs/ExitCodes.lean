import TacBench.Proofs.CaseFiles

/-! Exit codes that are no numbers. The test of a code file is left out alone if its exit code
cannot be read. An entry of a description that takes its exit code from a file costs the whole
section. -/
namespace TacBench.Bench

open Files (Tree)

variable {α β : Type} {t : Tree} {s : Suite} {dir : String} {ws ws' : List Warning}

theorem Yields.of_eq {x : Loading α} {P : α → Prop} {a : α} (yields : Yields x P)
    (same : x = pure a) : P a :=
  ((yields.done [] a []).mp (by rw [same]; rfl)).1

namespace Silent

/-- What follows only matters for the value that is given. -/
theorem bind_congr {x : Loading α} {f g : α → Loading β} (silent : Silent x)
    (same : ∀ a, x = pure a → f a = g a) :
    x >>= f = x >>= g := by
  rcases silent with ⟨a, rfl⟩ | ⟨e, rfl⟩
  · rw [pure_bind, pure_bind, same a rfl]
  · rw [throw_bind, throw_bind]

theorem given (t : Tree) (dir : String) (name : Text) (kind : String) (entry : Json) :
    Silent (orElse entry do return .str (← Bench.caseFile t dir name kind)) := by
  unfold orElse
  split
  · exact .inl ⟨_, rfl⟩
  · exact (caseFile t dir name kind).bind fun _ => .inl ⟨_, rfl⟩

theorem givenExit (t : Tree) (dir : String) (name : Text) (kind : String) (entry : Json) :
    Silent (do
      let j ← orElse entry do return .str (← Bench.caseFile t dir name kind)
      Bench.integerOf (if j.holds then j else .int 0)) :=
  (given t dir name kind entry).bind fun _ => integerOf _

end Silent

/-! Entries that take an exit code from a file. -/

/-- The entries get as far as the exit code, and take it from the file that stands there. -/
structure Asks (t : Tree) (dir : String) (kind : ExitKind) (l : Files.Location)
    (entries : List (Text × Json)) (name : Text) : Prop where
  code : ∃ code, Given t dir name "code" (Json.field entries "code") code ∧
    (code.holds = true ∨ (Json.field entries "allow_empty").holds = true)
  stdin : ∃ v, Given t dir name "stdin" (Json.field entries "stdin") v
  stdout : ∃ v, Given t dir name "stdout" (Json.field entries "stdout") v
  earlier : kind = .interpreter →
    ∃ n, GivenExit t dir name "cexitcode" (Json.field entries "compiler_exit_code") n
  absent : (Json.field entries kind.key).holds = false
  file : fileOf? t dir name kind.file = some l

/-- The entries at this position are not passed by, and take the exit code of their test from the
file. -/
structure Consults (t : Tree) (s : Suite) (dir : String) (kind : ExitKind) (l : Files.Location)
    (position : Nat) (entries : List (Text × Json)) (name : Text) :
    Prop extends Asks t dir kind l entries name where
  single : (Json.field entries "name").holds = false ∨ (Json.field entries "code").holds = false
  named : (if (Json.field entries "name").holds then Json.field entries "name"
    else .str (Suite.ordinal position)) =
    .str name
  chosen : allowed s.wildcards (Files.baseName dir) name = true

theorem describedCase_named {extensions : List Json} {position : Nat} {es : List (Text × Json)}
    {name : Text} (single : (Json.field es "name").holds = false ∨
      (Json.field es "code").holds = false)
    (named : (if (Json.field es "name").holds then Json.field es "name"
      else .str (Suite.ordinal position)) = .str name)
    (chosen : allowed s.wildcards (Files.baseName dir) name = true) :
    Suite.describedCase t s dir extensions position (.dict es) =
      Suite.entryCase t s dir extensions es (.str name) := by
  unfold Suite.describedCase
  rw [Suite.entriesOf_dict, pure_bind]
  dsimp only
  rw [if_neg (by rcases single with none | none <;> simp [none]), named,
    if_neg (by simpa [Suite.chooses] using chosen)]

theorem entriesOf_other {d : Json} (other : ¬ ∃ es, d = .dict es) :
    Suite.entriesOf d = throw .noEntries := by
  cases d with
  | dict es => exact absurd ⟨es, rfl⟩ other
  | _ => rfl

section Described

variable {kind : ExitKind} {l : Files.Location} {old content : List UInt8}
  (there : t.node? l = some (.file old)) (ends : kind.Ends l) {extensions : List Json}
  {position : Nat} {es : List (Text × Json)} {name : Text}

include there ends

/-- Entries that take no exit code from the file do not notice. -/
theorem entryCase_replaced
    (idle : fileOf? t dir name kind.file = some l → (Json.field es kind.key).holds = true) :
    Suite.entryCase (t.put l content) s dir extensions es (.str name) =
      Suite.entryCase t s dir extensions es (.str name) := by
  have exit : orElse (Json.field es kind.key)
      (do return .str (← caseFile (t.put l content) dir name kind.file)) =
      orElse (Json.field es kind.key) (do return .str (← caseFile t dir name kind.file)) := by
    unfold orElse
    split
    · rfl
    · rename_i absent
      rw [caseFile_replaced_other there fun own => absent (idle own)]
  unfold Suite.entryCase
  simp only [nameText_str, pure_bind]
  rw [caseFile_replaced_text there ends "code" (by decide),
    caseFile_replaced_text there ends "stdin" (by decide),
    caseFile_replaced_text there ends "stdout" (by decide),
    caseFile_replaced_text there ends "info" (by decide)]
  cases kind with
  | compiler =>
    dsimp only [ExitKind.key, ExitKind.file] at exit
    rw [exit, caseFile_replaced_kind there ends (by decide) (by decide)]
  | interpreter =>
    dsimp only [ExitKind.key, ExitKind.file] at exit
    rw [caseFile_replaced_kind there ends (by decide) (by decide), exit]

/-- Nor do entries that do not get as far as their exit code. -/
theorem entryCase_unreached (silent : ¬ Asks t dir kind l es name)
    (own : fileOf? t dir name kind.file = some l)
    (absent : (Json.field es kind.key).holds = false) :
    Suite.entryCase (t.put l content) s dir extensions es (.str name) =
      Suite.entryCase t s dir extensions es (.str name) := by
  unfold Suite.entryCase
  simp only [nameText_str, pure_bind]
  rw [caseFile_replaced_text there ends "code" (by decide),
    caseFile_replaced_text there ends "stdin" (by decide),
    caseFile_replaced_text there ends "stdout" (by decide)]
  refine (Silent.given t dir name "code" _).bind_congr fun code given => ?_
  split
  · rfl
  rename_i empty
  have filled : code.holds = true ∨ (Json.field es "allow_empty").holds = true := by
    simpa [or_iff_not_imp_left] using empty
  refine (Silent.given t dir name "stdin" _).bind_congr fun stdin stdinGiven => ?_
  refine (Silent.given t dir name "stdout" _).bind_congr fun stdout stdoutGiven => ?_
  have asks (earlier : kind = .interpreter →
      ∃ n, GivenExit t dir name "cexitcode" (Json.field es "compiler_exit_code") n) :
      Asks t dir kind l es name :=
    ⟨⟨code, (yields_given ..).of_eq given, filled⟩, ⟨stdin, (yields_given ..).of_eq stdinGiven⟩,
      ⟨stdout, (yields_given ..).of_eq stdoutGiven⟩, earlier, absent, own⟩
  cases kind with
  | compiler => exact absurd (asks nofun) silent
  | interpreter =>
    rw [caseFile_replaced_kind there ends (by decide) (by decide)]
    refine (Silent.givenExit t dir name "cexitcode" _).bind_congr fun exit exitGiven => ?_
    exact absurd (asks fun _ => ⟨exit, (yields_givenExit ..).of_eq exitGiven⟩) silent

/-- Unless the entry takes its exit code from the file, all it says stays. -/
theorem describedCase_replaced (unasked : ∀ name, ¬ Consults t s dir kind l position es name) :
    Suite.describedCase (t.put l content) s dir extensions position (.dict es) =
      Suite.describedCase t s dir extensions position (.dict es) := by
  generalize named : (if (Json.field es "name").holds then Json.field es "name"
    else .str (Suite.ordinal position)) = name
  by_cases opens : ((Json.field es "name").holds = false ∨ (Json.field es "code").holds = false) ∧
      s.chooses dir name = true ∧ ∃ n, name = .str n
  · obtain ⟨single, chosen, n, rfl⟩ := opens
    rw [describedCase_named single named chosen, describedCase_named single named chosen]
    by_cases own : fileOf? t dir n kind.file = some l
    · by_cases absent : (Json.field es kind.key).holds = false
      · refine entryCase_unreached there ends (fun asks => unasked n ?_) own absent
        exact { asks with single, named, chosen }
      · exact entryCase_replaced there ends fun _ => by simpa using absent
    · exact entryCase_replaced there ends fun here => absurd here own
  · -- the entry is passed by, or its name is given and no file has such a name
    unfold Suite.describedCase
    rw [Suite.entriesOf_dict, pure_bind, pure_bind]
    dsimp only
    rw [named]
    split
    · rfl
    rename_i single
    split
    · rfl
    rename_i chosen
    have other : ∀ n, name ≠ .str n := by
      intro n textual
      exact opens ⟨by simpa [or_iff_not_imp_left] using single, by simpa using chosen, n, textual⟩
    obtain ⟨f, failed⟩ := other_name_fault named other single
    unfold Suite.entryCase
    dsimp only
    rw [failed, failed, throw_bind, throw_bind]

theorem describedCase_rejected {text : String} {f : Integer.TextFault}
    (consults : Consults t s dir kind l position es name) (decoded : Utf8.decode content = .ok text)
    (rejected : exitOf text = .error f) (ws : List Warning) :
    (Suite.describedCase (t.put l content) s dir extensions position (.dict es)).run ws =
      .error (.integerText f (loadedText text)) ws := by
  obtain ⟨filled, failed⟩ := integerOf_rejected rejected
  have exit : (do
      let j ← orElse (Json.field es kind.key) do
        return .str (← caseFile (t.put l content) dir name kind.file)
      integerOf (if j.holds then j else .int 0)) = throw (.integerText f (loadedText text)) := by
    have holds : (Json.str (loadedText text)).holds = true := by simp [Json.holds, filled]
    rw [orElse, if_neg (by simp [consults.absent]),
      caseFile_replaced_self there consults.file decoded, pure_bind, pure_bind,
      if_pos holds, failed]
  obtain ⟨code, codeGiven, kept⟩ := consults.code
  obtain ⟨stdin, stdinGiven⟩ := consults.stdin
  obtain ⟨stdout, stdoutGiven⟩ := consults.stdout
  rw [describedCase_named consults.single consults.named consults.chosen]
  unfold Suite.entryCase
  simp only [nameText_str, pure_bind]
  rw [caseFile_replaced_text there ends "code" (by decide),
    caseFile_replaced_text there ends "stdin" (by decide),
    caseFile_replaced_text there ends "stdout" (by decide)]
  refine ((yields_given t dir name "code" _).run_of codeGiven ws).trans ?_
  rw [if_neg (by simpa [or_iff_not_imp_left] using kept)]
  refine ((yields_given t dir name "stdin" _).run_of stdinGiven ws).trans ?_
  refine ((yields_given t dir name "stdout" _).run_of stdoutGiven ws).trans ?_
  cases kind with
  | compiler =>
    dsimp only [ExitKind.key, ExitKind.file] at exit
    rw [exit, throw_bind]
    rfl
  | interpreter =>
    obtain ⟨n, exitGiven⟩ := consults.earlier rfl
    dsimp only [ExitKind.key, ExitKind.file] at exit
    rw [caseFile_replaced_kind there ends (by decide) (by decide)]
    refine ((yields_givenExit t dir name "cexitcode" _).run_of exitGiven ws).trans ?_
    rw [exit, throw_bind]
    rfl

end Described

/-- The computation ends with the fault, whatever has been warned of before. -/
def Throws (x : Loading α) (f : LoadFault) : Prop := ∀ ws, ∃ ws', x.run ws = .error f ws'

namespace Throws

theorem first {x : Loading α} {f : LoadFault} (throws : Throws x f) (k : α → Loading β) :
    Throws (x >>= k) f := by
  intro ws
  obtain ⟨ws', failed⟩ := throws ws
  exact ⟨ws', by rw [EStateM.run_bind, failed]⟩

theorem after {x : Loading α} {k : α → Loading β} {a : α} {f : LoadFault} (gives : Gives x a)
    (throws : Throws (k a) f) : Throws (x >>= k) f := by
  intro ws
  obtain ⟨between, ran⟩ := gives ws
  obtain ⟨ws', failed⟩ := throws between
  exact ⟨ws', by rw [EStateM.run_bind, ran]; exact failed⟩

/-- A run along a list fails at the first element that does. -/
theorem filterMapM {g : α → Loading (Option β)} {before after : List α} {a : α} {f : LoadFault}
    (passes : ∀ b ∈ before, Throws (g b) f ∨ ∃ o, Gives (g b) o) (throws : Throws (g a) f) :
    Throws ((before ++ a :: after).filterMapM g) f := by
  induction before with
  | nil =>
    rw [List.nil_append, List.filterMapM_cons]
    exact throws.first _
  | cons b before ih =>
    rw [List.forall_mem_cons] at passes
    rw [List.cons_append, List.filterMapM_cons]
    rcases passes.1 with failed | ⟨o, gives⟩
    · exact failed.first _
    · refine Throws.after gives ?_
      cases o with
      | none => exact ih passes.2
      | some c => exact (ih passes.2).first _

end Throws

theorem Describes.unique {d d' : Json} (describes : Describes t s.nesting dir d)
    (describes' : Describes t s.nesting dir d') : d = d' := by
  obtain ⟨_, ran⟩ := describes.gives (s := s) []
  obtain ⟨_, ran'⟩ := describes'.gives (s := s) []
  cases ran.symm.trans ran'
  rfl

/-- The entry gives its test or is passed by. -/
def Passed (t : Tree) (s : Suite) (dir : String) (extensions : List Json) (item : Json × Nat) :
    Prop :=
  ∃ entries, item.1 = .dict entries ∧
    (Skips t s dir item.2 entries ∨ ∃ c, Accepts t s dir extensions item.2 entries c)

/-- An entry of the description takes its exit code from the file, and those before it are no
hindrance. -/
def Consulted (t : Tree) (s : Suite) (dir : String) (kind : ExitKind) (l : Files.Location) : Prop :=
  ∃ es extensions items before entries position after name, Describes t s.nesting dir (.dict es) ∧
    elementsOf es "extensions" = pure extensions ∧ elementsOf es "tests" = pure items ∧
    items.zipIdx 1 = before ++ (.dict entries, position) :: after ∧
    (∀ item ∈ before, Passed t s dir extensions item) ∧
    Consults t s dir kind l position entries name

theorem passed_of_run {extensions : List Json} {item : Json × Nat} {o : Option Case}
    (ran : (Suite.describedCase t s dir extensions item.2 item.1).run ws = .ok o ws') :
    Passed t s dir extensions item := by
  cases o with
  | none =>
    obtain ⟨entries, entry, skips⟩ := describedCase_none ran
    exact ⟨entries, entry, .inl skips⟩
  | some c =>
    obtain ⟨⟨entries, entry, accepts⟩, -⟩ := describedCase_some.mp ran
    exact ⟨entries, entry, .inr ⟨c, accepts⟩⟩

/-- Two runs along a list agree if they do for each element that is reached. -/
theorem filterMapM_congr {f g : α → Loading (Option β)} {as : List α} {P : α → Prop}
    (same : ∀ before a after, as = before ++ a :: after → (∀ b ∈ before, P b) → f a = g a)
    (reached : ∀ a ws o ws', (g a).run ws = .ok o ws' → P a) :
    as.filterMapM f = as.filterMapM g := by
  induction as with
  | nil => rfl
  | cons a as ih =>
    rw [List.filterMapM_cons, List.filterMapM_cons, same [] a as rfl (List.forall_mem_nil _)]
    funext ws
    change ((g a) >>= _).run ws = ((g a) >>= _).run ws
    rw [EStateM.run_bind, EStateM.run_bind]
    cases ran : (g a).run ws with
    | error e u => rfl
    | ok o u =>
      have rest := ih fun before b after split passed => by
        refine same (a :: before) b after (by rw [split]; rfl) ?_
        exact List.forall_mem_cons.mpr ⟨reached a ws o u ran, passed⟩
      dsimp only
      rw [rest]

section Section

variable {kind : ExitKind} {l : Files.Location} {old content : List UInt8}
  (there : t.node? l = some (.file old)) (ends : kind.Ends l)

include there ends

/-- An entry that takes its exit code from the file ends the loading of the section. -/
theorem load_rejected {text : String} {f : Integer.TextFault} (present : t.isDirectory dir = true)
    (consulted : Consulted t s dir kind l) (decoded : Utf8.decode content = .ok text)
    (rejected : exitOf text = .error f) :
    Throws (Suite.load (t.put l content) s dir) (.integerText f (loadedText text)) := by
  obtain ⟨es, extensions, items, before, entries, position, after, name, describes, required, given,
      split, passes,
    consults⟩ := consulted
  have stops {position : Nat} {entries : List (Text × Json)} {name : Text}
      (consults : Consults t s dir kind l position entries name) :
      Throws (Suite.describedCase (t.put l content) s dir extensions position (.dict entries))
        (.integerText f (loadedText text)) :=
    fun ws => ⟨ws, describedCase_rejected there ends consults decoded rejected ws⟩
  have walks : Throws ((before ++ (.dict entries, position) :: after).filterMapM
    fun item : Json × Nat =>
      Suite.describedCase (t.put l content) s dir extensions item.2 item.1)
        (.integerText f (loadedText text)) := by
    refine Throws.filterMapM (fun item member => ?_) (stops consults)
    obtain ⟨_, position⟩ := item
    obtain ⟨entries, rfl, passed⟩ := passes _ member
    by_cases asks : ∃ name, Consults t s dir kind l position entries name
    · obtain ⟨name, consults⟩ := asks
      exact .inl (stops consults)
    · right
      rw [describedCase_replaced there ends (not_exists.mp asks)]
      rcases passed with skips | ⟨c, accepts⟩
      · exact ⟨none, describedCase_of_skips skips⟩
      · exact ⟨some c, describedCase_of_accepts accepts⟩
  have described : Throws (Suite.describedCases (t.put l content) s dir (.dict es))
      (.integerText f (loadedText text)) := by
    unfold Suite.describedCases
    rw [Suite.entriesOf_dict, pure_bind, required, pure_bind, given, pure_bind, split]
    intro ws
    obtain ⟨ws', failed⟩ := walks ws
    -- only an entry of the wrong kind is made up for
    exact ⟨ws', run_tryCatch_error failed⟩
  unfold Suite.load
  rw [if_neg (by simp [(Tree.kind_replaced there dir).2.1, present]),
    description_replaced there ends]
  exact Throws.after describes.gives (described.first _)

/-- If no entry takes its exit code from the file, the description says what it has said. -/
theorem describedCases_replaced {d : Json} (describes : Describes t s.nesting dir d)
    (calm : ¬ Consulted t s dir kind l) :
    Suite.describedCases (t.put l content) s dir d = Suite.describedCases t s dir d := by
  unfold Suite.describedCases
  by_cases entries : ∃ es, d = .dict es
  · obtain ⟨es, rfl⟩ := entries
    rw [Suite.entriesOf_dict, pure_bind, pure_bind]
    refine (Silent.elementsOf es "extensions").bind_congr fun extensions required => ?_
    refine congrArg (MonadExcept.tryCatch · _) ?_
    refine (Silent.elementsOf es "tests").bind_congr fun items given => ?_
    refine filterMapM_congr (P := Passed t s dir extensions)
      (fun before item after split passes => ?_)
      fun item ws o ws' ran => passed_of_run ran
    obtain ⟨entry, position⟩ := item
    dsimp only
    by_cases entries : ∃ es, entry = .dict es
    · obtain ⟨entries, rfl⟩ := entries
      refine describedCase_replaced there ends fun name consults => calm ?_
      exact ⟨es, extensions, items, before, entries, position, after, name, describes, required,
        given, split, passes, consults⟩
    · rw [Suite.describedCase, Suite.describedCase, entriesOf_other entries, throw_bind, throw_bind]
  · rw [entriesOf_other entries, throw_bind, throw_bind]

end Section

/-! The tests of code files. -/

/-- Either the fault of one computation is that of the other too, or the other has a fault of its
own that costs no more than a file. -/
def Fails (x x' : Loading α) : Prop :=
  (∃ f, x = throw f ∧ x' = throw f) ∨ ∃ f m, x' = throw f ∧ f.contentMessage? = some m

theorem Silent.fails {x : Loading α} {f g : α → Loading β} (silent : Silent x)
    (rest : ∀ a, Fails (f a) (g a)) :
    Fails (x >>= f) (x >>= g) := by
  rcases silent with ⟨a, rfl⟩ | ⟨e, rfl⟩
  · rw [pure_bind, pure_bind]
    exact rest a
  · exact .inl ⟨e, throw_bind _ _, throw_bind _ _⟩

section CodeFiles

variable {kind : ExitKind} {l : Files.Location} {old content : List UInt8}
  (there : t.node? l = some (.file old)) (ends : kind.Ends l) {extensions : List Json}
  {path : String} (code : ".code".toList <:+ path.toList)

include there ends code

theorem fileCase_replaced {name : String}
    (other : fileOf? t dir (Text.ofString name) kind.file ≠ some l) :
    Suite.fileCase (t.put l content) s dir extensions path name =
      Suite.fileCase t s dir extensions path name := by
  have same (kind' : String) (member : kind' ∈ kinds) :
      caseFile (t.put l content) dir (Text.ofString name) kind' =
        caseFile t dir (Text.ofString name) kind' := by
    by_cases own : kind' = kind.file
    · rw [own, caseFile_replaced_other there other]
    · exact caseFile_replaced_kind there ends member own _
  unfold Suite.fileCase
  dsimp only
  rw [(Tree.kind_replaced there path).1, fileText_replaced_code there ends code,
    same "stdin" (by decide), same "stdout" (by decide), same "cexitcode" (by decide),
    same "iexitcode" (by decide), same "info" (by decide)]

theorem fileCase_rejected {name text : String} {f : Integer.TextFault}
    (own : fileOf? t dir (Text.ofString name) kind.file = some l)
    (decoded : Utf8.decode content = .ok text) (rejected : exitOf text = .error f) :
    Fails (Suite.fileCase t s dir extensions path name)
      (Suite.fileCase (t.put l content) s dir extensions path name) := by
  obtain ⟨filled, failed⟩ := integerOf_rejected rejected
  have exit : (do
      let text ← caseFile (t.put l content) dir (Text.ofString name) kind.file
      if text.isEmpty then pure 0 else integerOf (.str text)) =
        throw (.integerText f (loadedText text)) := by
    rw [caseFile_replaced_self there own decoded, pure_bind, if_neg (by simp [filled]), failed]
  unfold Suite.fileCase
  dsimp only
  rw [(Tree.kind_replaced there path).1, fileText_replaced_code there ends code]
  split
  · exact .inl ⟨_, throw_bind _ _, throw_bind _ _⟩
  rw [caseFile_replaced_text there ends "stdin" (by decide),
    caseFile_replaced_text there ends "stdout" (by decide)]
  refine (Silent.fileText t path).fails fun _ => ?_
  refine (Silent.caseFile t dir name "stdin").fails fun _ => ?_
  refine (Silent.caseFile t dir name "stdout").fails fun _ => ?_
  cases kind with
  | compiler =>
    dsimp only [ExitKind.file] at exit
    rw [exit, throw_bind]
    exact .inr ⟨_, _, rfl, rfl⟩
  | interpreter =>
    dsimp only [ExitKind.file] at exit
    rw [caseFile_replaced_kind there ends (by decide) (by decide)]
    refine (Silent.exit t dir name "cexitcode").fails fun _ => ?_
    rw [exit, throw_bind]
    exact .inr ⟨_, _, rfl, rfl⟩

/-- The test whose exit code has been replaced is left out, and no other. -/
theorem fileCase?_replaced {taken : List Text} {o : Option Case} {text : String}
    {f : Integer.TextFault} (decoded : Utf8.decode content = .ok text)
    (rejected : exitOf text = .error f)
    (ran : (Suite.fileCase? t s dir taken extensions path).run ws = .ok o ws') :
    Gives (Suite.fileCase? (t.put l content) s dir taken extensions path)
      (o.filter fun c => fileOf? t dir c.name kind.file ≠ some l) := by
  obtain ⟨gives, -, names⟩ := fileCase?_gives ran
  generalize named : Files.stem (Files.baseName path) = name at names
  by_cases own : fileOf? t dir (Text.ofString name) kind.file = some l
  · have left : (o.filter fun c => fileOf? t dir c.name kind.file ≠ some l) = none := by
      cases o with
      | none => rfl
      | some c => simp [names c rfl, own]
    rw [left]
    by_cases passed : (taken.contains (Text.ofString name) || !s.chooses dir (.str name)) = true
    · rw [fileCase?_passed named passed]
      exact .value _
    · have content {g : LoadFault} {m : String} (message : g.contentMessage? = some m)
          (failed : Suite.fileCase (t.put l content) s dir extensions path name = throw g) :
          Gives (Suite.fileCase? (t.put l content) s dir taken extensions path) none :=
        fun us => ⟨.file path m :: us, by rw [fileCase?_fault named passed failed, message]; rfl⟩
      rcases fileCase_rejected there ends code own decoded rejected
        with ⟨g, failed, failed'⟩ | ⟨g, m, failed, message⟩
      · cases message : g.contentMessage? with
        | none =>
          rw [fileCase?_fault named passed failed, message] at ran
          cases ran
        | some m => exact content message failed'
      · exact content message failed
  · have kept : (o.filter fun c => fileOf? t dir c.name kind.file ≠ some l) = o := by
      cases o with
      | none => rfl
      | some c => simp [names c rfl, own]
    have same : Suite.fileCase? (t.put l content) s dir taken extensions path =
        Suite.fileCase? t s dir taken extensions path := by
      subst named
      unfold Suite.fileCase?
      dsimp only
      rw [fileCase_replaced there ends code own]
    rw [kept, same]
    exact gives

end CodeFiles

theorem fileCases_replaced {kind : ExitKind} {l : Files.Location} {old content : List UInt8}
    {taken : List Text} {d : Json} {cases : List Case} {text : String} {f : Integer.TextFault}
    (there : t.node? l = some (.file old)) (ends : kind.Ends l)
    (decoded : Utf8.decode content = .ok text) (rejected : exitOf text = .error f)
    (present : t.isDirectory dir = true)
    (ran : (Suite.fileCases t s dir taken d).run ws = .ok cases ws') :
    Gives (Suite.fileCases (t.put l content) s dir taken d)
      (cases.filter fun c => fileOf? t dir c.name kind.file ≠ some l) ∧
      ∀ c ∈ cases, PlainName c.name := by
  unfold Suite.fileCases at ran ⊢
  obtain ⟨es, rfl⟩ := entries_of_fileCases ran
  rw [Suite.entriesOf_dict, pure_bind] at ran ⊢
  obtain ⟨extensions, required, ran⟩ := (Silent.elementsOf es "extensions").yields.run_bind.mp ran
  have walk := Walk.of_run ran
  have some := Tree.ne_empty_of_isDirectory present
  constructor
  · rw [required, pure_bind, Files.Glob.paths_replaced there]
    refine walk.gives fun path found _ _ _ ran => ?_
    rw [Suite.inOrder, List.mem_mergeSort] at found
    exact fileCase?_replaced there ends (Files.Glob.suffix_of_mem_paths some found) decoded
      rejected ran
  · intro c member
    obtain ⟨path, -, _, _, ran⟩ := walk.source member
    exact ⟨_, Files.plain_stem path, (fileCase?_gives ran).2.2 c rfl⟩

namespace Suite

/-- If the tests that are left out all have one name, they are one test. -/
theorem filter_eq_or {fs gs : List Case} {p : Case → Bool} (once : ((fs ++ gs).map (·.name)).Nodup)
    (alike : ∀ c ∈ fs, ∀ c' ∈ fs, p c = false → p c' = false → c.name = c'.name) :
    fs.filter p = fs ∨ ∃ d ∈ fs, p d = false ∧ fs.filter p ++ gs =
      (fs ++ gs).filter (·.name ≠ d.name) := by
  by_cases all : ∀ c ∈ fs, p c = true
  · exact .inl (List.filter_eq_self.mpr all)
  · simp only [not_forall, Bool.not_eq_true] at all
    obtain ⟨d, member, left⟩ := all
    refine .inr ⟨d, member, left, ?_⟩
    rw [List.map_append, List.nodup_append] at once
    obtain ⟨onceFiles, -, apart⟩ := once
    have others : gs.filter (·.name ≠ d.name) = gs := by
      refine List.filter_eq_self.mpr fun c found => ?_
      have differ := apart _ (List.mem_map_of_mem member) _ (List.mem_map_of_mem found)
      simpa using fun same => differ same.symm
    rw [List.filter_append, others]
    congr 1
    refine List.filter_congr fun c found => ?_
    cases kept : p c with
    | false => simp [alike c found d member kept left]
    | true =>
      have differ : c.name ≠ d.name := by
        intro same
        rw [List.inj_on_of_nodup_map onceFiles found member same, left] at kept
        cases kept
      simp [differ]

/-- A text that is no number in the place of an exit code: if an entry of the description takes its
exit code from the file, the whole section cannot be loaded. Otherwise one test is left out at most,
a test whose file it is, and all others stay. -/
theorem bad_exit_code_costs {kind : ExitKind} {name : Text} {path text : String}
    {l : Files.Location} {t' : Tree} {content : List UInt8} {f : Integer.TextFault}
    {cases : List Case} (loaded : (load t s dir).run [] = .ok cases ws)
    (own : pathOf? dir name kind.file = some path) (located : t.locate path = .ok l)
    (file : t.isFile path = true) (replaced : t.write path content = .ok t')
    (decoded : Utf8.decode content = .ok text) (rejected : exitOf text = .error f) :
    (Consulted t s dir kind l → ∃ ws', (load t' s dir).run [] =
        .error (.integerText f (loadedText text)) ws') ∧
    (¬ Consulted t s dir kind l → ∃ cases' ws', (load t' s dir).run [] = .ok cases' ws' ∧
      (cases ≠ [] → ∃ n, fileOf? t dir n kind.file = some l ∧ (PlainName name → n = name) ∧
        (cases' = cases ∨ cases' = cases.filter (·.name ≠ n)))) := by
  obtain ⟨present, d, gs, fs, ws₁, ws₂, ws₃, described, ofDescription, ofFiles, ends⟩ :=
    load_stages loaded
  obtain ⟨old, there, rfl⟩ := Tree.put_of_write file located replaced
  have mine : fileOf? t dir name kind.file = some l := by simp [fileOf?, own, located,
    Except.toOption]
  have ending := ExitKind.ends_of_fileOf? mine
  refine ⟨fun consulted => load_rejected there ending present consulted decoded rejected [],
    fun calm => ?_⟩
  obtain ⟨gives, plain⟩ := fileCases_replaced there ending decoded rejected present ofFiles
  obtain ⟨us₃, ofFiles'⟩ := gives ws₂
  have present' : (t.put l content).isDirectory dir =
      true := by rw [(Tree.kind_replaced there dir).2.1, present]
  have described' : (description (t.put l content) s dir).run [] = .ok d ws₁ := by
    rw [description_replaced there ending]
    exact described
  have ofDescription' : (describedCases (t.put l content) s dir d).run ws₁ = .ok gs ws₂ := by
    rw [describedCases_replaced there ending (description_ok described) calm]
    exact ofDescription
  obtain ⟨cases', us', loaded', sorted⟩ :=
    load_ok_of_stages present' described' ofDescription' ofFiles'
  refine ⟨cases', us', loaded', fun some => ?_⟩
  obtain ⟨once, rfl, -⟩ := ends.resolve_right fun conflict => some conflict.2.1
  have given := Tree.ne_empty_of_isDirectory present
  have alike : ∀ c ∈ fs, ∀ c' ∈ fs, decide (fileOf? t dir c.name kind.file ≠ .some l) = false →
      decide (fileOf? t dir c'.name kind.file ≠ .some l) = false → c.name = c'.name := by
    intro c member c' member' linked linked'
    exact fileOf?_inj given (plain c member) (plain c' member') (by simpa using linked)
      (by simpa using linked')
  rcases filter_eq_or once alike with whole | ⟨c, member, linked, rest⟩
  · rw [whole] at sorted
    exact ⟨name, mine, fun _ => rfl, .inl (sorted once).1⟩
  · have linked : fileOf? t dir c.name kind.file = .some l := by simpa using linked
    refine ⟨c.name, linked, fun simple => fileOf?_inj given (plain c member) simple linked mine,
      .inr ?_⟩
    rw [rest] at sorted
    rw [(sorted (once.sublist (List.filter_sublist.map _))).1, mergeSort_filter once]

/-- A code file with its exit code, and another one with an entry in the description. -/
def exitSection : Tree where
  top := "/"
  nodes := [(["exits"], .directory),
    (["tests.json", "exits"], .file (Utf8.encode "\x7b\"tests\": [\x7b\"name\": \"b\"\x7d]\x7d")),
    (["a.code", "exits"], .file (Utf8.encode "1")),
    (["a.cexitcode", "exits"], .file (Utf8.encode "1")),
    (["b.code", "exits"], .file (Utf8.encode "2")),
    (["b.cexitcode", "exits"], .file (Utf8.encode "2"))]

/-- The section with something else in the place of an exit code. -/
def exitSectionWith (file content : String) : Tree :=
  exitSection.put [file, "exits"] (Utf8.encode content)

def exitEntries : List (Text × Json) := [("name", .str "b")]

theorem exitSection_describes :
    Describes exitSection
    wholeSuite.nesting "exits" (.dict [("tests", .list [.dict exitEntries])]) := by
  have read : exitSection.read (descriptionFile "exits") =
      .ok (Utf8.encode "\x7b\"tests\": [\x7b\"name\": \"b\"\x7d]\x7d") := by decide +kernel
  exact .parsed read (Utf8.decode_encode _) (by decide) rfl

theorem exitSection_loaded : ∃ cases, (load exitSection wholeSuite "exits").run [] = .ok cases [] ∧
    cases.map (·.name) = ["a", "b"].map Text.ofString := by
  have paths : inOrder (Files.Glob.paths exitSection (Files.join "exits" "*.code")) =
      ["exits/a.code", "exits/b.code"] := by
    rw [show Files.Glob.paths exitSection (Files.join "exits" "*.code") =
      ["exits/a.code", "exits/b.code"] by
      decide +kernel]
    exact List.mergeSort_of_pairwise (by decide)
  have ran : (stageNames exitSection wholeSuite "exits").run [] =
      .ok (["a"].map Text.ofString, ["b"].map Text.ofString) [] := by
    refine eq_ok_of_given? ?_
    unfold stageNames fileCases
    simp only [paths]
    decide +kernel
  exact load_of_stageNames (by decide +kernel) ran (by decide)

/-- The entry takes its exit code from its own file, and from no other. -/
theorem exitSection_consulted {l : Files.Location} :
    Consulted exitSection wholeSuite "exits" .compiler l ↔ l = ["b.cexitcode", "exits"] := by
  have file : fileOf? exitSection "exits" "b" "cexitcode" =
      some ["b.cexitcode", "exits"] := by decide +kernel
  constructor
  · rintro ⟨es, extensions, items, before, entries, position, after, name, describes, -, given,
      split, -, consults⟩
    cases describes.unique (s := wholeSuite) exitSection_describes
    cases pure_inj (given.symm.trans (rfl : _ = pure [Json.dict exitEntries]))
    cases before with
    | nil =>
      cases split
      cases consults.named
      exact Option.some.inj (consults.file.symm.trans file)
    | cons first rest =>
      have lengths := congrArg List.length split
      simp at lengths
  · rintro rfl
    have bytes : (Text.ofString "b").mapM Utf8.nameBytes? = some [[98]] := by decide +kernel
    have name : Utf8.decode [[98]].flatten = .ok "b" := by decide +kernel
    have missing {kind : String} (absent : (Json.field exitEntries kind).holds = false)
        (unread : exitSection.read (Files.join "exits" ("b" ++ "." ++ kind)) =
          .error ⟨.notFound, Files.join "exits" ("b" ++ "." ++ kind)⟩) :
        Given exitSection "exits" "b" kind (Json.field exitEntries kind) (.str []) :=
      .inr ⟨absent, [], .file bytes name (.missing unread (by simp)), rfl⟩
    have code : Given exitSection "exits" "b" "code" (Json.field exitEntries "code")
        (.str "2") := by
      have read : exitSection.read (Files.join "exits" ("b" ++ "." ++ "code")) =
          .ok (Utf8.encode "2") := by
        decide +kernel
      exact .inr ⟨rfl, _, .file bytes name (.content read (Utf8.decode_encode _)), rfl⟩
    exact ⟨_, [], [.dict exitEntries], [], exitEntries, 1, [], "b", exitSection_describes,
      rfl, rfl, rfl, List.forall_mem_nil _,
      ⟨⟨.str "2", code, .inl rfl⟩, ⟨.str [], missing rfl (by decide +kernel)⟩,
        ⟨.str [], missing rfl (by decide +kernel)⟩, nofun, rfl, file⟩, .inr rfl, rfl, rfl⟩

theorem exitSection_written {path file : String} {old : List UInt8} (simple : Tree.bare path = path)
    (located : exitSection.locate path = .ok [file, "exits"])
    (there : exitSection.node? [file, "exits"] = some (.file old)) :
    exitSection.isFile path = true ∧
      exitSection.write path (Utf8.encode "none") = .ok (exitSectionWith file "none") := by
  refine ⟨isFile_iff.mpr ⟨old, ?_⟩, Tree.write_file there simple located⟩
  rw [Tree.get?, located]
  exact there

/-- Without its exit code the test of the code file is left out at most; without that of the entry
nothing is loaded. -/
theorem exitSection_costs : ∃ cases, (load exitSection wholeSuite "exits").run [] = .ok cases [] ∧
    cases.map (·.name) = ["a", "b"].map Text.ofString ∧ exitOf "none" = .error .malformed ∧
    exitSection.write "exits/a.cexitcode" (Utf8.encode "none") =
      .ok (exitSectionWith "a.cexitcode" "none") ∧
    exitSection.write "exits/b.cexitcode" (Utf8.encode "none") =
      .ok (exitSectionWith "b.cexitcode" "none") ∧
    ¬ Consulted exitSection wholeSuite "exits" .compiler ["a.cexitcode", "exits"] ∧
    Consulted exitSection wholeSuite "exits" .compiler ["b.cexitcode", "exits"] ∧
    (∃ cases' ws, (load (exitSectionWith "a.cexitcode" "none") wholeSuite "exits").run [] =
        .ok cases' ws ∧
      (cases' = cases ∨ cases' = cases.filter (·.name ≠ Text.ofString "a"))) ∧
    ∃ ws, (load (exitSectionWith "b.cexitcode" "none") wholeSuite "exits").run [] =
      .error (.integerText .malformed (loadedText "none")) ws := by
  obtain ⟨cases, loaded, names⟩ := exitSection_loaded
  have some : cases ≠ [] := by
    rintro rfl
    cases names
  have rejected : exitOf "none" = .error .malformed := by decide +kernel
  have calm :=
    mt exitSection_consulted.mp (show ["a.cexitcode", "exits"] ≠ ["b.cexitcode", "exits"] by decide)
  have consulted := exitSection_consulted.mpr rfl
  have own : pathOf? "exits" "a" ExitKind.compiler.file =
      .some "exits/a.cexitcode" := by decide +kernel
  have own' : pathOf? "exits" "b" ExitKind.compiler.file =
      .some "exits/b.cexitcode" := by decide +kernel
  have located : exitSection.locate "exits/a.cexitcode" =
      .ok ["a.cexitcode", "exits"] := by decide +kernel
  have located' : exitSection.locate "exits/b.cexitcode" =
      .ok ["b.cexitcode", "exits"] := by decide +kernel
  have there : exitSection.node? ["a.cexitcode", "exits"] =
      .some (.file (Utf8.encode "1")) := by decide +kernel
  have there' : exitSection.node? ["b.cexitcode", "exits"] =
      .some (.file (Utf8.encode "2")) := by decide +kernel
  obtain ⟨file, written⟩ := exitSection_written (by decide +kernel) located there
  obtain ⟨file', written'⟩ := exitSection_written (by decide +kernel) located' there'
  obtain ⟨-, rest⟩ := bad_exit_code_costs loaded own located file written
    (Utf8.decode_encode _) rejected
  obtain ⟨lost, -⟩ := bad_exit_code_costs loaded own' located' file' written'
    (Utf8.decode_encode _) rejected
  obtain ⟨cases', ws, loaded', left⟩ := rest calm
  obtain ⟨n, -, plain, ends⟩ := left some
  rw [plain ⟨"a", by decide, rfl⟩] at ends
  exact ⟨cases, loaded, names, rejected, written, written', calm, consulted,
    ⟨cases', ws, loaded', ends⟩, lost consulted⟩

/-- The first test has nothing to do with the exit code of the second, and is lost with it. -/
theorem exitSection_lost : ∃ cases, (load exitSection wholeSuite "exits").run [] = .ok cases [] ∧
    (∃ c ∈ cases, c.name = "a") ∧ exitOf "none" = .error .malformed ∧
    exitSection.write "exits/b.cexitcode" (Utf8.encode "none") =
      .ok (exitSectionWith "b.cexitcode" "none") ∧
    ∀ cases' ws, (load (exitSectionWith "b.cexitcode" "none") wholeSuite "exits").run [] ≠
      .ok cases' ws := by
  obtain ⟨cases, loaded, names⟩ := exitSection_loaded
  have first : Text.ofString "a" ∈ cases.map (·.name) := by
    rw [names]
    exact List.mem_cons_self
  have rejected : exitOf "none" = .error .malformed := by decide +kernel
  have located : exitSection.locate "exits/b.cexitcode" =
      .ok ["b.cexitcode", "exits"] := by decide +kernel
  have there : exitSection.node? ["b.cexitcode", "exits"] =
      some (.file (Utf8.encode "2")) := by decide +kernel
  have ends : ExitKind.compiler.Ends ["b.cexitcode", "exits"] := ⟨_, _, rfl, by decide⟩
  obtain ⟨-, written⟩ := exitSection_written (by decide +kernel) located there
  obtain ⟨_, failed⟩ := load_rejected there ends (by decide +kernel) (exitSection_consulted.mpr rfl)
    (Utf8.decode_encode _) rejected []
  refine ⟨cases, loaded, List.mem_map.mp first, rejected, written, fun cases' ws ran => ?_⟩
  cases failed.symm.trans ran

end Suite

end TacBench.Bench
