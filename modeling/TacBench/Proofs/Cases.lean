import TacBench.Bench.Suite
import TacBench.Proofs.CodeFiles
import TacBench.Proofs.Replay

/-! A test of a section: what its description and its files give, and when it is passed by. -/
namespace TacBench.Bench

open Files (Tree)

/-! Computations that only read. -/

variable {α β : Type}

/-- The computation gives the values of which the condition holds, and warns of nothing. -/
structure Yields (x : Loading α) (P : α → Prop) : Prop where
  done : ∀ ws a ws', x.run ws = .ok a ws' ↔ P a ∧ ws' = ws
  failed : ∀ ws f ws', x.run ws = .error f ws' → ws' = ws

namespace Yields

theorem value (a : α) : Yields (pure a) (· = a) := by
  refine ⟨fun ws b ws' => ?_, fun ws f ws' ran => by cases ran⟩
  simp [EStateM.run_pure, eq_comm]

theorem fault (f : LoadFault) : Yields (throw f : Loading α) (fun _ => False) := by
  refine ⟨fun ws b ws' => ?_, fun ws f ws' ran => by cases ran; rfl⟩
  exact iff_of_false nofun fun never => never.1

theorem congr {x : Loading α} {P Q : α → Prop} (yields : Yields x P) (same : ∀ a, P a ↔ Q a) :
    Yields x Q :=
  ⟨fun ws a ws' => (yields.done ws a ws').trans (and_congr_left' (same a)), yields.failed⟩

theorem run_bind {x : Loading α} {P : α → Prop} (yields : Yields x P) {f : α → Loading β} {b : β}
    {ws ws' : List Warning} : (x >>= f).run ws = .ok b ws' ↔ ∃ a, P a ∧
    (f a).run ws = .ok b ws' := by
  rw [EStateM.run_bind]
  cases ran : x.run ws with
  | error e u =>
    refine iff_of_false nofun ?_
    rintro ⟨a, holds, -⟩
    cases ran.symm.trans ((yields.done ws a ws).mpr ⟨holds, rfl⟩)
  | ok a u =>
    obtain ⟨holds, rfl⟩ := (yields.done ws a u).mp ran
    refine ⟨fun rest => ⟨a, holds, rest⟩, ?_⟩
    rintro ⟨a', holds', rest⟩
    cases ran.symm.trans ((yields.done _ a' _).mpr ⟨holds', rfl⟩)
    exact rest

theorem run_of {x : Loading α} {f : α → Loading β} {P : α → Prop} {a : α} (yields : Yields x P)
    (holds : P a) (ws : List Warning) : (x >>= f).run ws = (f a).run ws := by
  rw [EStateM.run_bind, (yields.done ws a ws).mpr ⟨holds, rfl⟩]

theorem bind {x : Loading α} {f : α → Loading β} {P : α → Prop} {Q : α → β → Prop}
    (first : Yields x P) (rest : ∀ a, P a → Yields (f a) (Q a)) :
    Yields (x >>= f) (fun b => ∃ a, P a ∧ Q a b) := by
  constructor
  · intro ws b ws'
    rw [first.run_bind]
    constructor
    · rintro ⟨a, holds, ran⟩
      obtain ⟨given, same⟩ := ((rest a holds).done ws b ws').mp ran
      exact ⟨⟨a, holds, given⟩, same⟩
    · rintro ⟨⟨a, holds, given⟩, same⟩
      exact ⟨a, holds, ((rest a holds).done ws b ws').mpr ⟨given, same⟩⟩
  · intro ws e ws' failed
    rw [EStateM.run_bind] at failed
    cases ran : x.run ws with
    | error e' u =>
      rw [ran] at failed
      cases failed
      exact first.failed _ _ _ ran
    | ok a u =>
      obtain ⟨holds, rfl⟩ := (first.done ws a u).mp ran
      rw [ran] at failed
      exact (rest a holds).failed _ _ _ failed

end Yields

theorem mapM_elementOf_cases (js : List Json) :
    (∃ vs, js.mapM elementOf = pure vs) ∨ ∃ m, js.mapM elementOf = throw (.mismatch m) := by
  induction js with
  | nil => exact .inl ⟨[], rfl⟩
  | cons j js ih =>
    have first : (∃ v, elementOf j = pure v) ∨ ∃ m, elementOf j = throw (.mismatch m) := by
      cases j with
      | list | dict => exact .inr ⟨_, rfl⟩
      | _ => exact .inl ⟨_, rfl⟩
    rw [List.mapM_cons]
    rcases first with ⟨v, given⟩ | ⟨m, failed⟩
    · rw [given, pure_bind]
      rcases ih with ⟨vs, rest⟩ | ⟨m, failed⟩
      · exact .inl ⟨v :: vs, by rw [rest, pure_bind]⟩
      · exact .inr ⟨m, by rw [failed]; rfl⟩
    · exact .inr ⟨m, by rw [failed]; rfl⟩

/-- Only an element of the wrong kind keeps values from being a set. -/
theorem setOf_cases (js : List Json) :
    (∃ vs, setOf js = pure vs) ∨ ∃ m, setOf js = throw (.mismatch m) := by
  unfold setOf
  rcases mapM_elementOf_cases js with ⟨vs, given⟩ | ⟨m, failed⟩
  · exact .inl ⟨_, by rw [given, pure_bind]⟩
  · exact .inr ⟨m, by rw [failed]; rfl⟩

theorem pure_inj {a b : α} (same : (pure a : Loading α) = pure b) : a = b := by
  have ran : EStateM.Result.ok a [] = EStateM.Result.ok b [] := congrArg (EStateM.run · []) same
  cases ran
  rfl

/-- The computation gives a value or a fault, whatever the warnings so far. -/
def Silent (x : Loading α) : Prop := (∃ a, x = pure a) ∨ ∃ f, x = throw f

namespace Silent

theorem yields {x : Loading α} (silent : Silent x) : Yields x (x = pure ·) := by
  rcases silent with ⟨a, rfl⟩ | ⟨f, rfl⟩
  · exact (Yields.value a).congr fun b => ⟨fun same => same ▸ rfl, fun same => (pure_inj same).symm⟩
  · refine (Yields.fault f).congr fun b => ⟨False.elim, fun same => ?_⟩
    have ran : EStateM.Result.error f [] = EStateM.Result.ok b [] :=
      congrArg (EStateM.run · []) same
    cases ran

theorem elements (j : Json) : Silent (elements j) := by
  cases j with
  | list | str | dict => exact .inl ⟨_, rfl⟩
  | _ => exact .inr ⟨_, rfl⟩

theorem elementsOf (es : List (Text × Json)) (key : Text) : Silent (elementsOf es key) := by
  unfold Bench.elementsOf
  split
  · exact elements _
  · exact .inl ⟨[], rfl⟩

theorem setOf (js : List Json) : Silent (setOf js) :=
  (setOf_cases js).imp_right fun ⟨_, failed⟩ => ⟨_, failed⟩

theorem integerOf (j : Json) : Silent (integerOf j) := by
  unfold Bench.integerOf
  split
  · exact .inl ⟨_, rfl⟩
  · exact .inl ⟨_, rfl⟩
  · exact .inr ⟨_, rfl⟩
  · exact .inr ⟨_, rfl⟩
  · exact .inl ⟨_, rfl⟩
  · split
    · exact .inl ⟨_, rfl⟩
    · exact .inr ⟨_, rfl⟩
  · exact .inr ⟨_, rfl⟩

theorem infoOf (j : Json) : Silent (infoOf j) := by
  unfold Bench.infoOf
  split
  · exact .inl ⟨_, rfl⟩
  · split
    · exact .inr ⟨_, rfl⟩
    · exact .inl ⟨_, rfl⟩
  · split
    · exact .inr ⟨_, rfl⟩
    · exact .inl ⟨_, rfl⟩
  · exact .inr ⟨_, rfl⟩

end Silent

/-! The files of a test. -/

variable {t : Tree} {dir : String}

/-- What a file holds, with its line breaks made alike. A file that cannot be read holds nothing. -/
inductive Reads (t : Tree) (path : String) : Text → Prop where
  | content {bytes : List UInt8} {text : String} (read : t.read path = .ok bytes)
      (decoded : Utf8.decode bytes = .ok text) :
      Reads t path (Text.ofChars (Text.unifyBreaks text.toList))
  | missing {f : Files.Fault} (unread : t.read path = .error f) (other : f.cause ≠ .nullCharacter) :
      Reads t path []

/-- What the file of this kind holds that accompanies a test. A test may have a name that no file
has. -/
inductive Accompanies (t : Tree) (dir : String) (name : Text) (kind : String) : Text → Prop where
  | file {bytes : List (List UInt8)} {fileName : String} {text : Text}
      (written : name.mapM Utf8.nameBytes? = some bytes)
      (named : Utf8.decode bytes.flatten = .ok fileName)
      (reads : Reads t (Files.join dir (fileName ++ "." ++ kind)) text) :
      Accompanies t dir name kind text
  | nameless {bytes : List (List UInt8)} {f : Utf8.Fault}
      (written : name.mapM Utf8.nameBytes? = some bytes)
      (unnamed : Utf8.decode bytes.flatten = .error f) : Accompanies t dir name kind []

theorem yields_fileText (t : Tree) (path : String) : Yields (fileText t path) fun found =>
    (∃ bytes text, t.read path = .ok bytes ∧ Utf8.decode bytes = .ok text ∧ found = some text) ∨
      ∃ f, t.read path = .error f ∧ f.cause ≠ .nullCharacter ∧ found = none := by
  unfold fileText
  cases read : t.read path with
  | ok bytes =>
    dsimp only
    cases decoded : Utf8.decode bytes with
    | ok text =>
      refine (Yields.value _).congr fun found => ?_
      simp [decoded]
    | error f =>
      refine (Yields.fault _).congr fun found => ?_
      simp [decoded]
  | error f =>
    dsimp only
    split
    · refine (Yields.fault _).congr fun found => ?_
      simp_all
    · refine (Yields.value _).congr fun found => ?_
      simp_all

theorem yields_fileName (name : Text) : Yields (fileName name) fun found =>
    ∃ bytes, name.mapM Utf8.nameBytes? = some bytes ∧
      found = (Utf8.decode bytes.flatten).toOption := by
  unfold fileName
  cases name.mapM Utf8.nameBytes? with
  | none =>
    refine (Yields.fault _).congr fun found => ?_
    simp
  | some bytes =>
    refine (Yields.value _).congr fun found => ?_
    simp

theorem yields_text (t : Tree) (path : String) :
    Yields (do
      let text ← fileText t path
      return Text.ofChars (Text.unifyBreaks (text.getD "").toList)) (Reads t path) := by
  refine ((yields_fileText t path).bind fun found _ => .value _).congr fun text => ?_
  constructor
  · rintro ⟨found, ⟨bytes, content, read, decoded, rfl⟩ | ⟨f, unread, other, rfl⟩, rfl⟩
    · exact .content read decoded
    · exact .missing unread other
  · intro reads
    cases reads with
    | content read decoded => exact ⟨_, .inl ⟨_, _, read, decoded, rfl⟩, rfl⟩
    | missing unread other => exact ⟨_, .inr ⟨_, unread, other, rfl⟩, rfl⟩

theorem yields_caseFile (t : Tree) (dir : String) (name : Text) (kind : String) :
    Yields (caseFile t dir name kind) (Accompanies t dir name kind) := by
  refine Yields.congr (Yields.bind (Q := fun found text => found = none ∧ text = [] ∨
    ∃ file, found = some file ∧ Reads t (Files.join dir (file ++ "." ++ kind)) text)
      (yields_fileName name) ?_) ?_
  · intro found _
    cases found with
    | none =>
      refine (Yields.value _).congr fun text => ?_
      simp
    | some file =>
      refine (yields_text t _).congr fun text => ?_
      simp
  · intro text
    constructor
    · rintro ⟨found, ⟨bytes, written, rfl⟩, ⟨none, rfl⟩ | ⟨file, named, reads⟩⟩
      · cases decoded : Utf8.decode bytes.flatten with
        | ok => simp [decoded, Except.toOption] at none
        | error => exact .nameless written decoded
      · exact .file written (eq_ok_of_toOption named) reads
    · intro accompanies
      cases accompanies with
      | file written named reads =>
        exact ⟨_, ⟨_, written, rfl⟩, .inr ⟨_, by rw [named]; rfl, reads⟩⟩
      | nameless written unnamed => exact ⟨_, ⟨_, written, rfl⟩, .inl ⟨by rw [unnamed]; rfl, rfl⟩⟩

/-! The tests of a section. -/

/-- An entry of a description, or else what the file of this kind holds. -/
def Given (t : Tree) (dir : String) (name : Text) (kind : String) (entry v : Json) : Prop :=
  entry.holds = true ∧ v = entry ∨
    entry.holds = false ∧ ∃ text, Accompanies t dir name kind text ∧ v = .str text

/-- An exit code is an integer, zero if it is not given. -/
def GivenExit (t : Tree) (dir : String) (name : Text) (kind : String) (entry : Json) (n : Int) :
    Prop :=
  ∃ v, Given t dir name kind entry v ∧ integerOf (if v.holds then v else .int 0) = pure n

/-- The comment on a test that is not given is taken from its code. -/
def GivenInfo (t : Tree) (dir : String) (name : Text) (entry code v : Json) : Prop :=
  ∃ info, Given t dir name "info" entry info ∧
    (info.holds = true ∧ v = info ∨ info.holds = false ∧ ∃ text, infoOf code = pure text ∧
      v = .str text)

/-- The test that is described by these entries, which stand at this position. -/
structure Accepts (t : Tree) (s : Suite) (dir : String) (extensions : List Json) (position : Nat)
    (entries : List (Text × Json)) (c : Case) : Prop where
  single : (Json.field entries "name").holds = false ∨ (Json.field entries "code").holds = false
  name : (if (Json.field entries "name").holds then Json.field entries "name"
    else .str (Suite.ordinal position)) =
    .str c.name
  chosen : allowed s.wildcards (Files.baseName dir) c.name = true
  code : Given t dir c.name "code" (Json.field entries "code") c.code
  filled : c.code.holds = true ∨ (Json.field entries "allow_empty").holds = true
  stdin : Given t dir c.name "stdin" (Json.field entries "stdin") c.stdin
  stdout : Given t dir c.name "stdout" (Json.field entries "stdout") c.stdout
  compilerExit : GivenExit t dir c.name "cexitcode" (Json.field entries "compiler_exit_code")
    c.compilerExit
  interpreterExit : GivenExit t dir c.name "iexitcode" (Json.field entries "interpreter_exit_code")
    c.interpreterExit
  info : GivenInfo t dir c.name (Json.field entries "info") c.code c.info
  extensions : ∃ own, elementsOf entries "extensions" = pure own ∧
    setOf (own ++ extensions) = pure c.extensions
  timeout : c.timeout = if (Json.field entries "timeout").holds then Json.field entries "timeout"
    else s.timeout
  directory : c.directory = dir

/-- The entries that give no test: those with both a name and code, those that are not chosen, and
those without code that may not be without. -/
inductive Skips (t : Tree) (s : Suite) (dir : String) (position : Nat)
    (entries : List (Text × Json)) : Prop where
  | redefined (named : (Json.field entries "name").holds = true)
      (coded : (Json.field entries "code").holds = true)
  | unchosen (left : s.chooses dir (if (Json.field entries "name").holds
    then Json.field entries "name"
      else .str (Suite.ordinal position)) = false)
  | noCode {name : Text} {code : Json}
      (named : (if (Json.field entries "name").holds then Json.field entries "name"
      else .str (Suite.ordinal position)) = .str name)
      (given : Given t dir name "code" (Json.field entries "code") code) (void : code.holds = false)
      (required : (Json.field entries "allow_empty").holds = false)

/-- The test of the code file with this name. -/
structure FileTest (t : Tree) (s : Suite) (dir : String) (extensions : List Json) (base : String)
    (c : Case) :
    Prop where
  name : c.name = Text.ofString base
  code : ∃ bytes text, t.get? (Files.join (Tree.bare dir) (base ++ ".code")) = some (.file bytes) ∧
    Utf8.decode bytes = .ok text ∧ c.code = .str (Text.ofString text)
  stdin : ∃ text, Accompanies t dir base "stdin" text ∧ c.stdin = .str text
  stdout : ∃ text, Accompanies t dir base "stdout" text ∧ c.stdout = .str text
  compilerExit : ∃ text, Accompanies t dir base "cexitcode" text ∧
    (text = [] ∧ c.compilerExit = 0 ∨ text ≠ [] ∧ Integer.ofText text.seen = .ok c.compilerExit)
  interpreterExit : ∃ text, Accompanies t dir base "iexitcode" text ∧
    (text = [] ∧ c.interpreterExit = 0 ∨ text ≠ [] ∧ Integer.ofText text.seen =
      .ok c.interpreterExit)
  info : ∃ text, Accompanies t dir base "info" text ∧
    (text ≠ [] ∧ c.info = .str text ∨ text = [] ∧ ∃ code, c.code = .str code ∧
      c.info = .str (codeInfo code))
  extensions : setOf extensions = pure c.extensions
  timeout : c.timeout = s.timeout
  directory : c.directory = dir

/-- The code file and the files that accompany it can be read, and the exit codes are integers. -/
structure Sound (t : Tree) (dir : String) (base : String) : Prop where
  code : ∃ bytes text, t.get? (Files.join (Tree.bare dir) (base ++ ".code")) = some (.file bytes) ∧
    Utf8.decode bytes = .ok text
  texts : ∀ kind ∈ ["stdin", "stdout", "info"], ∃ text, Accompanies t dir base kind text
  exits : ∀ kind ∈ ["cexitcode", "iexitcode"], ∃ text, Accompanies t dir base kind text ∧
    (text = [] ∨ ∃ n, Integer.ofText text.seen = .ok n)

theorem yields_exit (t : Tree) (dir : String) (name : Text) (kind : String) :
    Yields (do
      let text ← caseFile t dir name kind
      if text.isEmpty then pure 0 else integerOf (.str text)) fun n =>
      ∃ text, Accompanies t dir name kind text ∧
        (text = [] ∧ n = 0 ∨ text ≠ [] ∧ Integer.ofText text.seen = .ok n) := by
  refine (yields_caseFile t dir name kind).bind fun text _ => ?_
  cases text with
  | nil =>
    refine (Yields.value _).congr fun n => ?_
    simp
  | cons c r =>
    dsimp only [integerOf]
    rw [if_neg (by simp)]
    cases Integer.ofText (Text.seen (c :: r)) with
    | ok m =>
      refine (Yields.value _).congr fun n => ?_
      simp [eq_comm]
    | error f =>
      refine (Yields.fault _).congr fun n => ?_
      simp

theorem isFile_iff {path : String} :
    t.isFile path = true ↔ ∃ bytes, t.get? path = some (.file bytes) := by
  unfold Tree.isFile
  split
  · simp_all
  · rename_i other
    exact iff_of_false nofun fun ⟨bytes, found⟩ => other bytes found

theorem read_of_file {path : String} {bytes : List UInt8}
    (found : t.get? path = some (.file bytes)) :
    t.read path = .ok bytes := by
  unfold Tree.get? at found
  split at found
  · rename_i l located
    simp [Tree.read, located, bind, Except.bind, found]
  · cases found

theorem yields_fileCase (t : Tree) (s : Suite) (dir : String) (extensions : List Json)
    (base : String) :
    Yields (Suite.fileCase t s dir extensions (Files.join (Tree.bare dir) (base ++ ".code")) base)
      (FileTest t s dir extensions base) := by
  unfold Suite.fileCase
  dsimp only
  split
  · rename_i absent
    refine (Yields.bind (Q := fun _ _ => False) (.fault (α := Unit) _) nofun).congr fun c => ?_
    refine iff_of_false nofun fun test => ?_
    obtain ⟨bytes, _, found, -⟩ := test.code
    simp [isFile_iff.mpr ⟨bytes, found⟩] at absent
  · rename_i present
    obtain ⟨bytes, found⟩ := isFile_iff.mp (by simpa using present)
    have read := read_of_file found
    have code : Yields (fileText t (Files.join (Tree.bare dir) (base ++ ".code"))) fun o =>
        ∃ text, Utf8.decode bytes = .ok text ∧ o = some text := by
      refine (yields_fileText t _).congr fun o => ?_
      simp [read]
    refine (code.bind fun o _ => (yields_caseFile ..).bind fun stdin _ =>
      (yields_caseFile ..).bind fun stdout _ =>
      (yields_exit ..).bind fun compilerExit _ => (yields_exit ..).bind fun interpreterExit _ =>
      (yields_caseFile ..).bind fun info _ => (Silent.setOf _).yields.bind fun found _ =>
        .value _).congr fun c => ?_
    constructor
    · rintro ⟨_, ⟨text, decoded, rfl⟩, stdin, stdinRead, stdout, stdoutRead, compilerExit,
        compilerRead, interpreterExit, interpreterRead, info, infoRead, extensions, required, rfl⟩
      refine ⟨rfl, ⟨bytes, text, found, decoded, rfl⟩, ⟨stdin, stdinRead, rfl⟩,
        ⟨stdout, stdoutRead, rfl⟩, compilerRead, interpreterRead, ⟨info, infoRead, ?_⟩,
        required, rfl, rfl⟩
      cases info with
      | nil => exact .inr ⟨rfl, _, rfl, rfl⟩
      | cons => exact .inl ⟨nofun, rfl⟩
    · rintro ⟨named, ⟨bytes', text, found', decoded, written⟩, ⟨stdin, stdinRead, stdinSame⟩,
        ⟨stdout, stdoutRead, stdoutSame⟩, compilerRead, interpreterRead,
        ⟨info, infoRead, commented⟩, required, timeout, directory⟩
      cases found.symm.trans found'
      refine ⟨_, ⟨text, decoded, rfl⟩, stdin, stdinRead, stdout, stdoutRead, _, compilerRead, _,
        interpreterRead, info, infoRead, _, required, ?_⟩
      have comment : c.info = .str (if List.isEmpty info then codeInfo (Text.ofString text)
          else info) := by
        rcases commented with ⟨some, same⟩ | ⟨rfl, code, same, taken⟩
        · rw [same, if_neg (by simpa using some)]
        · cases written.symm.trans same
          exact taken
      cases c
      dsimp only at named written stdinSame stdoutSame timeout directory comment ⊢
      rw [named, written, stdinSame, stdoutSame, timeout, directory, comment]
      rfl

/-! What of a description is loaded. -/

theorem yields_given (t : Tree) (dir : String) (name : Text) (kind : String) (entry : Json) :
    Yields (orElse entry do return .str (← caseFile t dir name kind))
    (Given t dir name kind entry) := by
  unfold orElse
  split
  · rename_i holds
    refine (Yields.value entry).congr fun v => ?_
    simp [Given, holds]
  · rename_i holds
    refine ((yields_caseFile t dir name kind).bind fun text _ => .value _).congr fun v => ?_
    simp [Given, holds]

theorem yields_givenExit (t : Tree) (dir : String) (name : Text) (kind : String) (entry : Json) :
    Yields (do
      let j ← orElse entry do return .str (← caseFile t dir name kind)
      integerOf (if j.holds then j else .int 0)) (GivenExit t dir name kind entry) :=
  (yields_given t dir name kind entry).bind fun _ _ => (Silent.integerOf _).yields

theorem yields_givenInfo (t : Tree) (dir : String) (name : Text) (entry code : Json) :
    Yields (orElse entry do
      let info ← (do pure (Json.str (← caseFile t dir name "info")))
      orElse info do return .str (← infoOf code))
      (GivenInfo t dir name entry code) := by
  have comment : Yields (do return Json.str (← infoOf code)) fun v =>
      ∃ text, infoOf code = pure text ∧ v = .str text :=
    (Silent.infoOf code).yields.bind fun _ _ => .value _
  unfold orElse GivenInfo Given
  split
  · rename_i holds
    refine (Yields.value entry).congr fun v => ?_
    simp [holds]
  · rename_i holds
    have rest (text : Text) : Yields (if (Json.str text).holds = true then pure (Json.str text)
        else do return .str (← infoOf code)) fun v => (Json.str text).holds = true ∧ v = .str text ∨
          (Json.str text).holds = false ∧ ∃ text, infoOf code = pure text ∧ v = .str text := by
      split
      · rename_i some
        refine (Yields.value _).congr fun v => ?_
        simp [some]
      · rename_i none
        refine comment.congr fun v => ?_
        simp [none]
    simp only [bind_assoc, pure_bind]
    refine ((yields_caseFile t dir name "info").bind fun text _ => rest text).congr fun v => ?_
    constructor
    · rintro ⟨text, accompanies, given⟩
      exact ⟨.str text, .inr ⟨by simpa using holds, text, accompanies, rfl⟩, given⟩
    · rintro ⟨_, ⟨holds', -⟩ | ⟨-, text, accompanies, rfl⟩, given⟩
      · exact absurd holds' holds
      · exact ⟨text, accompanies, given⟩

theorem throw_bind (f : LoadFault) (k : α → Loading β) : (throw f >>= k) = throw f := rfl

/-- A name that is no text is given, so that the code is not, and no file is named for it. -/
theorem other_name_fault {es : List (Text × Json)} {position : Nat} {name : Json}
    (named : (if (Json.field es "name").holds then Json.field es "name"
      else .str (Suite.ordinal position)) = name)
    (other : ∀ n, name ≠ .str n)
    (single : ¬ ((Json.field es "name").holds && (Json.field es "code").holds) = true) :
    ∃ f, ∀ (t : Tree) (dir : String),
      (orElse (Json.field es "code") do return .str (← caseFile t dir (← nameText name) "code")) =
        throw f := by
  have given : (Json.field es "name").holds = true := by
    by_contra unnamed
    rw [if_neg unnamed] at named
    exact other _ named.symm
  have uncoded : (Json.field es "code").holds = false := by simpa [given] using single
  have failed : ∃ f, nameText name = throw f := by
    cases name with
    | str n => exact absurd rfl (other n)
    | _ => exact ⟨_, rfl⟩
  obtain ⟨f, failed⟩ := failed
  refine ⟨f, fun t dir => ?_⟩
  simp only [orElse, uncoded, failed, throw_bind, Bool.false_eq_true, if_false]

theorem other_name_run {es : List (Text × Json)} {position : Nat} {name : Json}
    {k : Json → Loading β} {b : β} {ws ws' : List Warning}
    (named : (if (Json.field es "name").holds then Json.field es "name"
      else .str (Suite.ordinal position)) = name)
    (other : ∀ n, name ≠ .str n)
    (single : ¬ ((Json.field es "name").holds && (Json.field es "code").holds) = true) :
    ((orElse (Json.field es "code") do return .str (← caseFile t dir (← nameText name) "code")) >>=
        k).run ws ≠
      .ok b ws' := by
  obtain ⟨f, failed⟩ := other_name_fault named other single
  rw [failed, throw_bind]
  exact nofun

theorem nameText_str (n : Text) : nameText (.str n) = pure n := rfl

theorem Suite.entriesOf_dict (es : List (Text × Json)) : entriesOf (.dict es) = pure es := rfl

theorem describedCase_some {s : Suite} {extensions : List Json} {position : Nat}
    {entry : Json} {c : Case} {ws ws' : List Warning} :
    (Suite.describedCase t s dir extensions position entry).run ws = .ok (some c) ws' ↔
      (∃ es, entry = .dict es ∧ Accepts t s dir extensions position es c) ∧ ws' = ws := by
  unfold Suite.describedCase
  cases entry with
  | dict es =>
    rw [Suite.entriesOf_dict, pure_bind]
    dsimp only
    split
    · rename_i both
      refine iff_of_false nofun ?_
      rintro ⟨⟨_, ⟨⟩, accepts⟩, -⟩
      rcases accepts.single with unnamed | uncoded <;> simp_all
    rename_i single
    generalize named : (if (Json.field es "name").holds then Json.field es "name"
      else .str (Suite.ordinal position)) = name
    split
    · rename_i left
      refine iff_of_false nofun ?_
      rintro ⟨⟨_, ⟨⟩, accepts⟩, -⟩
      have chosen := accepts.chosen
      rw [named.symm.trans accepts.name] at left
      simp [Suite.chooses, chosen] at left
    rename_i chosen
    cases name with
    | str n =>
      unfold Suite.entryCase
      simp only [nameText_str, pure_bind]
      -- what follows the code warns of nothing, and tells each field of the test
      have rest (code : Json) := (yields_given t dir n "stdin" (Json.field es "stdin")).bind
        fun stdin _ =>
        (yields_given t dir n "stdout" (Json.field es "stdout")).bind fun stdout _ =>
        (yields_givenExit t dir n "cexitcode" (Json.field es "compiler_exit_code")).bind
          fun compilerExit _ =>
        (yields_givenExit t dir n "iexitcode" (Json.field es "interpreter_exit_code")).bind
          fun interpreterExit _ =>
        (yields_givenInfo t dir n (Json.field es "info") code).bind fun info _ =>
        (Silent.elementsOf es "extensions").yields.bind fun own _ =>
        (Silent.setOf (own ++ extensions)).yields.bind fun required _ =>
        Yields.value
          (some (⟨n, code, stdin, stdout, compilerExit, interpreterExit, info, dir, required,
          if (Json.field es "timeout").holds then Json.field es "timeout" else s.timeout⟩ : Case))
      rw [(yields_given t dir n "code" (Json.field es "code")).run_bind]
      constructor
      · rintro ⟨code, written, ran⟩
        split at ran
        · cases ran
        · rename_i filled
          obtain ⟨⟨stdin, stdinGiven, stdout, stdoutGiven, compilerExit, compilerGiven,
              interpreterExit,
            interpreterGiven, info, infoGiven, own, ownGiven, required, requiredGiven,
            same⟩, rfl⟩ :=
            ((rest code).done _ _ _).mp ran
          cases same
          refine ⟨⟨es, rfl, ⟨?_, ?_, ?_, written, ?_, stdinGiven, stdoutGiven, compilerGiven,
            interpreterGiven, infoGiven, ⟨own, ownGiven, requiredGiven⟩, rfl, rfl⟩⟩, rfl⟩
          · simpa [or_iff_not_imp_left] using single
          · exact named
          · simpa [Suite.chooses] using chosen
          · simpa [or_iff_not_imp_left] using filled
      · rintro ⟨⟨_, ⟨⟩, accepts⟩, rfl⟩
        cases named.symm.trans accepts.name
        obtain ⟨own, ownGiven, requiredGiven⟩ := accepts.extensions
        refine ⟨c.code, accepts.code, ?_⟩
        rw [if_neg (by simpa [or_iff_not_imp_left] using accepts.filled)]
        refine ((rest c.code).done _ _ _).mpr
          ⟨⟨_, accepts.stdin, _, accepts.stdout, _, accepts.compilerExit, _,
          accepts.interpreterExit, _, accepts.info, own, ownGiven, _, requiredGiven, ?_⟩, rfl⟩
        rw [← accepts.timeout, ← accepts.directory]
    | _ =>
      refine iff_of_false (other_name_run named nofun single) ?_
      rintro ⟨⟨_, ⟨⟩, accepts⟩, -⟩
      cases named.symm.trans accepts.name
  | _ =>
    refine iff_of_false nofun ?_
    rintro ⟨⟨_, ⟨⟩, -⟩, -⟩

/-- A computation that ends with a test gives one. -/
theorem bind_ne_none {x : Loading α} {f : α → Loading (Option β)}
    (rest : ∀ a ws ws', (f a).run ws ≠ .ok none ws') (ws ws' : List Warning) :
    (x >>= f).run ws ≠ .ok none ws' := by
  intro ran
  obtain ⟨a, between, -, ended⟩ := ran_bind ran
  exact rest a between ws' ended

theorem describedCase_none {s : Suite} {extensions : List Json} {position : Nat} {entry : Json}
    {ws ws' : List Warning}
    (ran : (Suite.describedCase t s dir extensions position entry).run ws = .ok none ws') :
    ∃ es, entry = .dict es ∧ Skips t s dir position es := by
  unfold Suite.describedCase at ran
  cases entry with
  | dict es =>
    refine ⟨es, rfl, ?_⟩
    rw [Suite.entriesOf_dict, pure_bind] at ran
    dsimp only at ran
    split at ran
    · rename_i both
      rw [Bool.and_eq_true] at both
      exact .redefined both.1 both.2
    rename_i single
    generalize named : (if (Json.field es "name").holds then Json.field es "name"
      else .str (Suite.ordinal position)) = name at ran
    split at ran
    · rename_i left
      refine .unchosen ?_
      rw [named]
      simpa using left
    cases name with
    | str n =>
      unfold Suite.entryCase at ran
      simp only [nameText_str, pure_bind] at ran
      obtain ⟨code, given, ran⟩ :=
        (yields_given t dir n "code" (Json.field es "code")).run_bind.mp ran
      split at ran
      · rename_i empty
        rw [Bool.and_eq_true, Bool.not_eq_true', Bool.not_eq_true'] at empty
        exact .noCode named given empty.1 empty.2
      · refine absurd ran (bind_ne_none (fun _ => bind_ne_none fun _ => bind_ne_none fun _ =>
          bind_ne_none fun _ =>
          bind_ne_none fun _ => bind_ne_none fun _ => bind_ne_none fun _ _ _ ran => by
            cases ran) _ _)
    | _ => exact absurd ran (other_name_run named nofun single)
  | _ => cases ran

theorem FileTest.sound {s : Suite} {extensions : List Json} {base : String} {c : Case}
    (test : FileTest t s dir extensions base c) : Sound t dir base := by
  have text {kind : String} {v : Json} (given : ∃ text, Accompanies t dir base kind text ∧
    v = .str text) :
      ∃ text, Accompanies t dir base kind text := given.imp fun _ found => found.1
  have exit {kind : String} {n : Int} (given : ∃ text, Accompanies t dir base kind text ∧
      (text = [] ∧ n = 0 ∨ text ≠ [] ∧ Integer.ofText text.seen = .ok n)) :
      ∃ text, Accompanies t dir base kind text ∧
        (text = [] ∨ ∃ n, Integer.ofText text.seen = .ok n) :=
    given.imp fun _ found => ⟨found.1, found.2.imp (·.1) fun whole => ⟨n, whole.2⟩⟩
  obtain ⟨bytes, code, found, decoded, -⟩ := test.code
  obtain ⟨info, read, -⟩ := test.info
  refine ⟨⟨bytes, code, found, decoded⟩, ?_, ?_⟩
  · simpa using ⟨text test.stdin, text test.stdout, info, read⟩
  · simpa using ⟨exit test.compilerExit, exit test.interpreterExit⟩

/-- Files that can be read give a test, unless the required extensions are no set. -/
theorem fileCase_of_sound {s : Suite} {extensions : List Json} {base : String}
    (sound : Sound t dir base) :
    (∃ c, FileTest t s dir extensions base c) ∨ ∃ m, ∀ ws,
      (Suite.fileCase t s dir extensions (Files.join (Tree.bare dir) (base ++ ".code")) base).run
          ws =
        .error (.mismatch m) ws := by
  obtain ⟨bytes, code, found, decoded⟩ := sound.code
  obtain ⟨stdin, stdinRead⟩ := sound.texts "stdin" (by simp)
  obtain ⟨stdout, stdoutRead⟩ := sound.texts "stdout" (by simp)
  obtain ⟨info, infoRead⟩ := sound.texts "info" (by simp)
  have exit (kind : String) (member : kind ∈ ["cexitcode", "iexitcode"]) :
      ∃ n text, Accompanies t dir base kind text ∧
      (text = [] ∧ n = 0 ∨ text ≠ [] ∧ Integer.ofText text.seen = .ok n) := by
    obtain ⟨text, read, whole⟩ := sound.exits kind member
    by_cases empty : text = []
    · exact ⟨0, text, read, .inl ⟨empty, rfl⟩⟩
    · obtain ⟨n, given⟩ := whole.resolve_left empty
      exact ⟨n, text, read, .inr ⟨empty, given⟩⟩
  obtain ⟨compilerExit, compilerRead⟩ := exit "cexitcode" (by simp)
  obtain ⟨interpreterExit, interpreterRead⟩ := exit "iexitcode" (by simp)
  rcases setOf_cases extensions with ⟨required, given⟩ | ⟨m, failed⟩
  · refine .inl ⟨⟨base, .str (Text.ofString code), .str stdin, .str stdout, compilerExit,
      interpreterExit, .str (if info = [] then codeInfo code else info), dir, required,
      s.timeout⟩, rfl, ⟨bytes, code, found, decoded, rfl⟩, ⟨stdin, stdinRead, rfl⟩,
      ⟨stdout, stdoutRead, rfl⟩, compilerRead, interpreterRead, ⟨info, infoRead, ?_⟩,
      given, rfl, rfl⟩
    by_cases empty : info = []
    · exact .inr ⟨empty, code, rfl, by rw [if_pos empty]⟩
    · exact .inl ⟨empty, by rw [if_neg empty]⟩
  · refine .inr ⟨m, fun ws => ?_⟩
    have content : ∃ bytes' text, t.read (Files.join (Tree.bare dir) (base ++ ".code")) =
        .ok bytes' ∧
      Utf8.decode bytes' = .ok text ∧ some code = some text :=
        ⟨bytes, code, read_of_file found, decoded, rfl⟩
    unfold Suite.fileCase
    rw [if_neg (by simp [isFile_iff.mpr ⟨bytes, found⟩])]
    refine ((yields_fileText t _).run_of (.inl content) ws).trans ?_
    refine ((yields_caseFile t dir base "stdin").run_of stdinRead ws).trans ?_
    refine ((yields_caseFile t dir base "stdout").run_of stdoutRead ws).trans ?_
    refine ((yields_exit t dir base "cexitcode").run_of compilerRead ws).trans ?_
    refine ((yields_exit t dir base "iexitcode").run_of interpreterRead ws).trans ?_
    refine ((yields_caseFile t dir base "info").run_of infoRead ws).trans ?_
    rw [failed]
    rfl

end TacBench.Bench
