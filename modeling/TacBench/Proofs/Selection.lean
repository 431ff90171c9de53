import Mathlib.Data.List.Infix
import TacBench.Proofs.Sections

/-! Tests chosen by wildcards. It makes no difference whether tests are passed by while a section is
loaded or are struck out of what has been loaded without wildcards. -/
namespace TacBench

theorem Text.occurs_iff {part s : List Char} : occurs part s = true ↔ part <:+: s := by
  induction s with
  | nil => simp [occurs]
  | cons c r ih => rw [occurs, Bool.or_eq_true, ih, List.isPrefixOf_iff_prefix, List.infix_cons_iff]

/-! The names of code files. -/

namespace Files

theorem suffix_join (base file : String) : file.toList <:+ (join base file).toList := by
  unfold join
  split
  · exact List.suffix_refl _
  · split
    · rw [String.toList_append]
      exact List.suffix_append _ _
    · rw [String.toList_append]
      exact List.suffix_append _ _

theorem suffix_baseName {s : List Char} {path : String} (plain : '/' ∉ s)
    (ends : s <:+ path.toList) :
    s <:+ (baseName path).toList := by
  obtain ⟨start, whole⟩ := ends
  have kept : ∀ c ∈ s.reverse, (c != '/') = true := by
    intro c member
    rw [bne_iff_ne]
    rintro rfl
    exact plain (List.mem_reverse.mp member)
  rw [baseName, String.toList_ofList, ← whole, List.reverse_append,
    List.takeWhile_append_of_pos kept, List.reverse_append, List.reverse_reverse]
  exact List.suffix_append _ _

/-- Only the empty name has an empty stem. -/
theorem stem_ne_empty {name : String} (some : name ≠ "") : stem name ≠ "" := by
  unfold stem
  dsimp only
  split
  · rename_i dotted
    intro empty
    have none := congrArg String.toList empty
    rw [String.toList_ofList, String.toList_empty, List.append_eq_nil_iff,
      List.reverse_eq_nil_iff] at none
    -- a dot that only its extension follows would stand first, and so would have been counted among
    -- the dots
    generalize behind : name.toList.dropWhile (· == '.') = rest at dotted none
    have first : rest.head? ≠ .some '.' := by
      have head := List.head?_dropWhile_not (· == '.') name.toList
      rw [behind] at head
      intro dot
      simp [dot] at head
    have parts := List.takeWhile_append_dropWhile (p := (· != '.')) (l := rest.reverse)
    cases last : rest.reverse.dropWhile (· != '.') with
    | nil =>
      rw [List.dropWhile_eq_nil_iff] at last
      have absent := last '.' (by simpa using dotted)
      simp at absent
    | cons c before =>
      have dot : c = '.' := by
        have head := List.head?_dropWhile_not (· != '.') rest.reverse
        simpa [last] using head
      have alone : before = [] := by
        rw [last] at none
        exact none.2
      rw [last, alone, dot] at parts
      have turned := congrArg List.reverse parts
      rw [List.reverse_reverse, List.reverse_append] at turned
      exact first (by rw [← turned]; rfl)
  · exact some

theorem Tree.ne_empty_of_isDirectory {t : Tree} {path : String}
    (present : t.isDirectory path = true) : path ≠ "" := by
  obtain ⟨l, located, -⟩ := names_of_isDirectory present
  exact (locate_eq_ok.mp located).2.1

namespace Glob

theorem mem_namesIn {t : Tree} {dir pattern name : String} {only : Bool}
    (found : name ∈ namesIn t dir pattern only) :
    matchesName pattern name = true := by
  unfold namesIn at found
  dsimp only at found
  split at found
  · cases found
  · have accepted := (List.mem_filter.mp found).2
    rw [Bool.and_eq_true, Bool.and_eq_true] at accepted
    exact accepted.1.2

/-- Whatever the directory is called, what is found for the pattern are paths of code files. -/
theorem suffix_of_mem_paths {t : Tree} {dir path : String} (some : dir ≠ "")
    (found : path ∈ paths t (join dir "*.code")) : ".code".toList <:+ path.toList := by
  have simple : '/' ∉ "*.code".toList := by decide
  have whole : isPattern (join dir "*.code") = true := by
    obtain ⟨start, joined, -⟩ := join_plain some simple
    rw [isPattern, joined, List.any_append]
    simp
  have last : isPattern "*.code" = true := by decide
  rw [paths, pathsWithin, baseName_join some simple] at found
  simp only [whole, last, Bool.not_true, Bool.false_eq_true, if_false, if_true] at found
  split at found
  · exact (matchesName_code path).mp (mem_namesIn found)
  · obtain ⟨base, -, listed⟩ := List.mem_flatMap.mp found
    obtain ⟨file, member, rfl⟩ := List.mem_map.mp listed
    exact ((matchesName_code file).mp (mem_namesIn member)).trans (suffix_join base file)

end Glob

end Files

namespace Bench

open Files (Tree)

variable {α β : Type} {t : Tree} {s : Suite} {dir : String} {ws ws' : List Warning}

/-! Wildcards as they are written. -/

namespace Wildcard

/-- Whether a text is a wildcard that the test of this name fits: its first part stands in the name
of the section, and its second part, if it has one, is the name of the test. -/
def fits (sectionName : String) (name : Text) (text : String) : Bool :=
  match Files.names text with
  | [part] => decide (part.toList <:+: sectionName.toList)
  | [part, whole] => decide (part.toList <:+: sectionName.toList) && Text.ofString whole == name
  | _ => false

theorem ofText?_eq_some {text : String} {w : Wildcard} :
    ofText? text = some w ↔ Files.names text = w.sectionPart :: w.name.toList := by
  have same : Files.names text = ((text.toList.splitOn '/').filter (!·.isEmpty)).map
      String.ofList := by
    rw [Files.names, Files.parts, List.filter_map]
    congr 1
    refine List.filter_congr fun part _ => ?_
    rw [Function.comp_apply, Bool.eq_iff_iff]
    simp
  obtain ⟨part, name⟩ := w
  rw [same, ofText?]
  cases (text.toList.splitOn '/').filter (!·.isEmpty) with
  | nil => simp
  | cons a rest =>
    cases rest with
    | nil => cases name <;> simp
    | cons b rest =>
      cases rest with
      | nil => cases name <;> simp
      | cons => cases name <;> simp

theorem allowsTest_iff {w : Wildcard} {text sectionName : String} {name : Text}
    (read : ofText? text = some w) :
    w.allowsTest sectionName name = true ↔ fits sectionName name text = true := by
  rw [ofText?_eq_some] at read
  obtain ⟨part, whole⟩ := w
  rw [fits, read, allowsTest, allowsSection, Bool.and_eq_true, Text.occurs_iff]
  cases whole with
  | none => simp
  | some n => simp [Option.toList]

theorem fits_eq_false {text : String} (unread : ofText? text = none) (sectionName : String)
    (name : Text) :
    fits sectionName name text = false := by
  unfold fits
  split
  · rename_i part parts
    cases unread.symm.trans (ofText?_eq_some (w := ⟨part, none⟩).mpr parts)
  · rename_i part whole parts
    cases unread.symm.trans (ofText?_eq_some (w := ⟨part, some whole⟩).mpr parts)
  · rfl

/-- What a text adds to the wildcards that have been read and to the texts that are none. -/
def adding (read : List Wildcard × List String) (text : String) : List Wildcard × List String :=
  if text.isEmpty then read
  else match ofText? text with
    | some w => (if w ∈ read.1 then read.1 else read.1 ++ [w], read.2)
    | none => (read.1, read.2 ++ [text])

theorem mem_adding {read : List Wildcard × List String} {text : String} {w : Wildcard} :
    w ∈ (adding read text).1 ↔ w ∈ read.1 ∨ ofText? text = some w := by
  unfold adding
  split
  · rename_i empty
    have unread : ofText? text = none := by
      rw [String.isEmpty_iff.mp empty]
      rfl
    simp [unread]
  · cases parsed : ofText? text with
    | none => simp
    | some v =>
      dsimp only
      split
      · rename_i there
        refine ⟨.inl, ?_⟩
        rintro (member | same)
        · exact member
        · exact Option.some.inj same ▸ there
      · rw [List.mem_append, List.mem_singleton, Option.some.injEq, eq_comm]

theorem mem_foldl_adding {texts : List String} {read : List Wildcard × List String} {w : Wildcard} :
    w ∈ (texts.foldl adding read).1 ↔ w ∈ read.1 ∨ ∃ text ∈ texts, ofText? text = some w := by
  induction texts generalizing read with
  | nil => simp
  | cons text texts ih => rw [List.foldl_cons, ih, mem_adding, or_assoc, List.exists_mem_cons_iff]

theorem mem_readAll {texts : List String} {w : Wildcard} :
    w ∈ (readAll texts).1 ↔ ∃ text ∈ texts, ofText? text = some w := by
  have same : readAll texts = texts.foldl adding ([], []) := rfl
  rw [same, mem_foldl_adding]
  simp

/-- Among wildcards of which one is well formed, a test is chosen by those that it fits. -/
theorem allowed_readAll {texts : List String}
    (some : ∃ text ∈ texts, (Files.names text).length ∈ [1, 2]) (sectionName : String) {name : Text}
    (named : name ≠ []) :
    allowed (readAll texts).1 sectionName name = texts.any (fits sectionName name) := by
  have present : (readAll texts).1.isEmpty = false := by
    obtain ⟨text, member, formed⟩ := some
    obtain ⟨w, read⟩ : ∃ w, ofText? text = .some w := by
      cases parts : Files.names text with
      | nil => simp [parts] at formed
      | cons a rest =>
        cases rest with
        | nil => exact ⟨⟨a, none⟩, ofText?_eq_some.mpr parts⟩
        | cons b rest =>
          have last : rest = [] := by simpa [parts] using formed
          exact ⟨⟨a, .some b⟩, ofText?_eq_some.mpr (by rw [parts, last]; rfl)⟩
    exact List.isEmpty_eq_false_iff.mpr (List.ne_nil_of_mem (mem_readAll.mpr ⟨text, member, read⟩))
  have filled : name.isEmpty = false := List.isEmpty_eq_false_iff.mpr named
  rw [allowed, present, Bool.false_or, Bool.eq_iff_iff, List.any_eq_true, List.any_eq_true]
  simp only [filled, Bool.false_eq_true, if_false]
  constructor
  · rintro ⟨w, member, allows⟩
    obtain ⟨text, member, read⟩ := mem_readAll.mp member
    exact ⟨text, member, (allowsTest_iff read).mp allows⟩
  · rintro ⟨text, member, fitting⟩
    cases read : ofText? text with
    | none => exact absurd fitting (Bool.eq_false_iff.mp (fits_eq_false read sectionName name))
    | some w => exact ⟨w, mem_readAll.mpr ⟨text, member, read⟩, (allowsTest_iff read).mpr fitting⟩

end Wildcard

/-! Results that do not depend on what has been warned of before. -/

/-- The computation gives the value, whatever has been warned of before. -/
def Gives (x : Loading α) (a : α) : Prop := ∀ ws, ∃ ws', x.run ws = .ok a ws'

namespace Gives

theorem value (a : α) : Gives (pure a) a := fun ws => ⟨ws, rfl⟩

theorem of_yields {x : Loading α} {P : α → Prop} {a : α} (yields : Yields x P) (holds : P a) :
    Gives x a :=
  fun ws => ⟨ws, (yields.done ws a ws).mpr ⟨holds, rfl⟩⟩

theorem bind {x : Loading α} {f : α → Loading β} {a : α} {b : β} (first : Gives x a)
    (rest : Gives (f a) b) :
    Gives (x >>= f) b := by
  intro ws
  obtain ⟨between, ran⟩ := first ws
  obtain ⟨ws', ran'⟩ := rest between
  exact ⟨ws', by rw [EStateM.run_bind, ran]; exact ran'⟩

theorem warned (w : Warning) {f : Unit → Loading β} {b : β} (rest : Gives (f ()) b) :
    Gives (warn w >>= f) b :=
  bind (fun ws => ⟨w :: ws, rfl⟩) rest

theorem tryCatch {x : Loading α} {handle : LoadFault → Loading α} {a : α} (gives : Gives x a) :
    Gives (MonadExcept.tryCatch x handle) a := by
  intro ws
  obtain ⟨ws', ran⟩ := gives ws
  exact ⟨ws', run_tryCatch_ok ran⟩

end Gives

/-- If of each element that has been kept is kept now what a condition leaves, the condition filters
the list. -/
theorem Walk.gives {f g : α → Loading (Option β)} {as : List α} {bs : List β} {p : β → Bool}
    (walk : Walk f as ws bs ws')
    (each : ∀ a ∈ as, ∀ ws o ws', (f a).run ws = .ok o ws' → Gives (g a) (o.filter p)) :
    Gives (as.filterMapM g) (bs.filter p) := by
  induction walk with
  | nil => exact .value []
  | @cons a o as bs ws between ws' first rest ih =>
    rw [List.forall_mem_cons] at each
    have kept := each.1 _ _ _ first
    have more := ih each.2
    rw [List.filterMapM_cons]
    cases o with
    | none => exact kept.bind more
    | some b =>
      by_cases stays : p b = true
      · rw [Option.filter_some, if_pos stays] at kept
        rw [Option.toList_some, List.singleton_append, List.filter_cons_of_pos stays]
        exact kept.bind (more.bind (.value _))
      · rw [Option.filter_some, if_neg stays] at kept
        rw [Option.toList_some, List.singleton_append, List.filter_cons_of_neg stays]
        exact kept.bind more

theorem Walk.source {f : α → Loading (Option β)} {as : List α} {bs : List β}
    (walk : Walk f as ws bs ws') {b : β} (member : b ∈ bs) :
    ∃ a ∈ as, ∃ ws ws', (f a).run ws = .ok (some b) ws' := by
  induction walk with
  | nil => cases member
  | @cons a o as bs ws between ws' first rest ih =>
    rcases List.mem_append.mp member with here | later
    · obtain rfl : o = some b := by simpa using here
      exact ⟨a, List.mem_cons_self, _, _, first⟩
    · obtain ⟨a', found, ran⟩ := ih later
      exact ⟨a', List.mem_cons_of_mem _ found, ran⟩

theorem Describes.gives {d : Json} (describes : Describes t s.nesting dir d) :
    Gives (s.description t dir) d := by
  unfold Suite.description
  have content {bytes : List UInt8} {text : String}
    (read : t.read (Suite.descriptionFile dir) = .ok bytes)
    (decoded : Utf8.decode bytes = .ok text) :
      Gives (fileText t (Suite.descriptionFile dir)) (some text) :=
    .of_yields (yields_fileText t _) (.inl ⟨bytes, text, read, decoded, rfl⟩)
  cases describes with
  | missing unread other =>
    exact .bind (.of_yields (yields_fileText t _) (.inr ⟨_, unread, other, rfl⟩)) (.value _)
  | empty read decoded => exact (content read decoded).bind (.value _)
  | @malformed bytes text cause position read decoded failed =>
    refine (content read decoded).bind ?_
    dsimp only
    by_cases empty : text.isEmpty = true
    · rw [if_pos empty]
      exact .value _
    · rw [if_neg empty, failed]
      exact .warned _ (.value _)
  | parsed read decoded filled parsed =>
    refine (content read decoded).bind ?_
    dsimp only
    rw [if_neg (by simpa using filled), parsed]
    exact .value _

/-! What the wildcards leave of the entries of a description. -/

section Described

variable {extensions : List Json} {position : Nat} {es : List (Text × Json)} {c : Case}

theorem describedCase_of_accepts (accepts : Accepts t s dir extensions position es c) :
    Gives (Suite.describedCase t s dir extensions position (.dict es)) (some c) :=
  fun ws => ⟨ws, describedCase_some.mpr ⟨⟨es, rfl, accepts⟩, rfl⟩⟩

theorem describedCase_of_skips (skips : Skips t s dir position es) :
    Gives (Suite.describedCase t s dir extensions position (.dict es)) none := by
  unfold Suite.describedCase
  rw [Suite.entriesOf_dict, pure_bind]
  dsimp only
  by_cases both : ((Json.field es "name").holds && (Json.field es "code").holds) = true
  · rw [if_pos both]
    exact .warned _ (.value _)
  rw [if_neg both]
  cases skips with
  | redefined named coded => exact absurd (by rw [named, coded]; rfl) both
  | unchosen left =>
    rw [left, if_pos (by rfl)]
    exact .value _
  | @noCode name code named given void required =>
    rw [named]
    split
    · exact .value _
    · unfold Suite.entryCase
      simp only [nameText_str, pure_bind]
      refine (Gives.of_yields (yields_given t dir name "code" _) given).bind ?_
      rw [void, required, if_pos (by rfl)]
      exact .warned _ (.value _)

theorem Suite.ordinal_ne_empty (n : Nat) : ordinal n ≠ "" := by
  intro empty
  have whole := congrArg String.toList empty
  rw [ordinal, String.toList_append, String.toList_empty, List.append_eq_nil_iff] at whole
  simp [Nat.repr] at whole

theorem Accepts.name_ne_nil (accepts : Accepts t s dir extensions position es c) : c.name ≠ [] := by
  intro empty
  have named := accepts.name
  rw [empty] at named
  split at named
  · rename_i holds
    rw [named] at holds
    cases holds
  · exact Suite.ordinal_ne_empty position (Text.ofString_injective (Json.str.inj named))

/-- Without wildcards everything is chosen. -/
theorem describedCase_filtered {entry : Json} {o : Option Case}
    (ran : (Suite.describedCase t { s with wildcards := [] } dir extensions position entry).run ws =
        .ok o ws') :
    Gives (Suite.describedCase t s dir extensions position entry)
      (o.filter fun c => allowed s.wildcards (Files.baseName dir) c.name) := by
  cases o with
  | none =>
    obtain ⟨es, rfl, skips⟩ := describedCase_none ran
    refine describedCase_of_skips ?_
    cases skips with
    | redefined named coded => exact .redefined named coded
    | unchosen left =>
      exfalso
      revert left
      unfold Suite.chooses
      split <;> simp [allowed]
    | noCode named given void required => exact .noCode named given void required
  | some c =>
    obtain ⟨⟨es, rfl, accepts⟩, -⟩ := describedCase_some.mp ran
    by_cases chosen : allowed s.wildcards (Files.baseName dir) c.name = true
    · rw [Option.filter_some, if_pos chosen]
      exact describedCase_of_accepts { accepts with chosen }
    · rw [Option.filter_some, if_neg chosen]
      refine describedCase_of_skips (.unchosen ?_)
      rw [accepts.name]
      simpa [Suite.chooses] using chosen

theorem describedCases_filtered {d : Json} {cases : List Case}
    (ran : (Suite.describedCases t { s with wildcards := [] } dir d).run ws = .ok cases ws')
    (typed : ∀ m, .description m ∉ ws') :
    Gives (Suite.describedCases t s dir d) (cases.filter fun c =>
      allowed s.wildcards (Files.baseName dir) c.name) ∧
      ∀ c ∈ cases, c.name ≠ [] := by
  unfold Suite.describedCases at ran ⊢
  cases d with
  | dict es =>
    rw [Suite.entriesOf_dict, pure_bind] at ran ⊢
    obtain ⟨extensions, required, ran⟩ := (Silent.elementsOf es "extensions").yields.run_bind.mp ran
    rcases ran_tryCatch ran with ran | ⟨f, between, -, handled⟩
    · obtain ⟨items, given, ran⟩ := (Silent.elementsOf es "tests").yields.run_bind.mp ran
      have walk := Walk.of_run ran
      constructor
      · rw [required, pure_bind, given, pure_bind]
        exact (walk.gives fun _ _ _ _ _ ran => describedCase_filtered ran).tryCatch
      · intro c member
        obtain ⟨item, -, ws, ws', ran⟩ := walk.source member
        obtain ⟨⟨_, -, accepts⟩, -⟩ := describedCase_some.mp ran
        exact accepts.name_ne_nil
    · split at handled
      · rename_i m
        cases handled
        exact absurd List.mem_cons_self (typed m)
      · cases handled
  | _ => cases ran

end Described

/-! What they leave of the code files. -/

namespace Silent

theorem bind {x : Loading α} {f : α → Loading β} (first : Silent x) (rest : ∀ a, Silent (f a)) :
    Silent (x >>= f) := by
  rcases first with ⟨a, rfl⟩ | ⟨f, rfl⟩
  · rw [pure_bind]
    exact rest a
  · exact .inr ⟨f, rfl⟩

theorem fileText (t : Tree) (path : String) : Silent (fileText t path) := by
  unfold Bench.fileText
  split
  · split
    · exact .inl ⟨_, rfl⟩
    · exact .inr ⟨_, rfl⟩
  · split
    · exact .inr ⟨_, rfl⟩
    · exact .inl ⟨_, rfl⟩

theorem caseFile (t : Tree) (dir : String) (name : Text) (kind : String) :
    Silent (caseFile t dir name kind) := by
  refine bind ?_ fun found => ?_
  · unfold fileName
    split
    · exact .inl ⟨_, rfl⟩
    · exact .inr ⟨_, rfl⟩
  · cases found with
    | none => exact .inl ⟨_, rfl⟩
    | some file => exact (fileText t _).bind fun _ => .inl ⟨_, rfl⟩

theorem exit (t : Tree) (dir : String) (name : Text) (kind : String) :
    Silent (do
      let text ← Bench.caseFile t dir name kind
      if text.isEmpty then pure 0 else Bench.integerOf (.str text)) := by
  refine (caseFile t dir name kind).bind fun text => ?_
  split
  · exact .inl ⟨_, rfl⟩
  · exact integerOf _

theorem fileCase (t : Tree) (s : Suite) (dir : String) (extensions : List Json)
    (path name : String) :
    Silent (Suite.fileCase t s dir extensions path name) := by
  unfold Suite.fileCase
  dsimp only
  split
  · exact .inr ⟨_, rfl⟩
  exact (fileText t path).bind fun _ => (caseFile ..).bind fun _ => (caseFile ..).bind fun _ =>
    (exit ..).bind fun _ => (exit ..).bind fun _ => (caseFile ..).bind fun _ =>
      (setOf _).bind fun _ => .inl ⟨_, rfl⟩

end Silent

section CodeFiles

variable {extensions : List Json} {path : String} {taken taken' : List Text}

theorem fileCase_name {name : String} {c : Case}
    (ran : (Suite.fileCase t s dir extensions path name).run ws = .ok c ws') :
    c.name = Text.ofString name := by
  unfold Suite.fileCase at ran
  dsimp only at ran
  split at ran
  · cases ran
  obtain ⟨_, _, -, ran⟩ := ran_bind ran
  obtain ⟨_, _, -, ran⟩ := ran_bind ran
  obtain ⟨_, _, -, ran⟩ := ran_bind ran
  obtain ⟨_, _, -, ran⟩ := ran_bind ran
  obtain ⟨_, _, -, ran⟩ := ran_bind ran
  obtain ⟨_, _, -, ran⟩ := ran_bind ran
  obtain ⟨_, _, -, ran⟩ := ran_bind ran
  cases ran
  rfl

section Wanted

variable {name : String} (named : Files.stem (Files.baseName path) = name)

include named

theorem fileCase?_passed
    (passed : (taken.contains (Text.ofString name) || !s.chooses dir (.str name)) = true) :
    Suite.fileCase? t s dir taken extensions path = pure none := by
  subst named
  unfold Suite.fileCase?
  dsimp only
  rw [if_pos passed]

variable (kept : ¬ (taken.contains (Text.ofString name) || !s.chooses dir (.str name)) = true)

include kept

theorem fileCase?_test {c : Case} (given : Suite.fileCase t s dir extensions path name = pure c)
    (ws : List Warning) :
    (Suite.fileCase? t s dir taken extensions path).run ws = .ok (some c) ws := by
  subst named
  unfold Suite.fileCase?
  dsimp only
  rw [if_neg kept, given, pure_bind]
  exact run_tryCatch_ok rfl

/-- A fault of the content costs the test and is warned of, any other fault costs the section. -/
theorem fileCase?_fault {f : LoadFault}
    (failed : Suite.fileCase t s dir extensions path name = throw f) (ws : List Warning) :
    (Suite.fileCase? t s dir taken extensions path).run ws =
      f.contentMessage?.elim (.error f ws) fun m => .ok none (.file path m :: ws) := by
  have thrown : (throw f >>= fun c => pure (some c) : Loading (Option Case)).run ws = .error f ws :=
    rfl
  subst named
  unfold Suite.fileCase?
  dsimp only
  rw [if_neg kept, failed, run_tryCatch_error thrown]
  cases f.contentMessage? <;> rfl

end Wanted

/-- Whether the test of a code file is given does not depend on what has been warned of before, and
a file that is left out is at most warned of. -/
theorem fileCase?_gives {o : Option Case}
    (ran : (Suite.fileCase? t s dir taken extensions path).run ws = .ok o ws') :
    Gives (Suite.fileCase? t s dir taken extensions path) o ∧ ws <:+ ws' ∧
      ∀ c, o = some c → c.name = Text.ofString (Files.stem (Files.baseName path)) := by
  generalize named : Files.stem (Files.baseName path) = name
  by_cases passed : (taken.contains (Text.ofString name) || !s.chooses dir (.str name)) = true
  · rw [fileCase?_passed named passed] at ran ⊢
    cases ran
    exact ⟨.value _, List.suffix_refl _, fun c given => by cases given⟩
  rcases Silent.fileCase t s dir extensions path name with ⟨c, given⟩ | ⟨f, failed⟩
  · have test : ∀ us, (Suite.fileCase? t s dir taken extensions path).run us = .ok (some c) us :=
      fileCase?_test named passed given
    cases (test ws).symm.trans ran
    refine ⟨fun us => ⟨us, test us⟩, List.suffix_refl _, ?_⟩
    rintro _ ⟨⟩
    have ran : (Suite.fileCase t s dir extensions path name).run ws = .ok c ws := by
      rw [given]
      rfl
    exact fileCase_name ran
  · have fault : ∀ us, (Suite.fileCase? t s dir taken extensions path).run us =
        f.contentMessage?.elim (.error f us) fun m => .ok none (.file path m :: us) :=
      fileCase?_fault named passed failed
    have ended := (fault ws).symm.trans ran
    cases message : f.contentMessage? with
    | none =>
      rw [message] at ended
      cases ended
    | some m =>
      rw [message] at ended fault
      cases ended
      exact ⟨fun us => ⟨_, fault us⟩, List.suffix_cons _ _, fun c given => by cases given⟩

/-- Names that are taken only matter as far as they are chosen. -/
theorem fileCase?_filtered {o : Option Case}
    (agree : ∀ n, allowed s.wildcards (Files.baseName dir) n = true → (n ∈ taken' ↔ n ∈ taken))
    (ran : (Suite.fileCase? t { s with wildcards := [] } dir taken extensions path).run ws =
        .ok o ws') :
    Gives (Suite.fileCase? t s dir taken' extensions path)
      (o.filter fun c => allowed s.wildcards (Files.baseName dir) c.name) := by
  obtain ⟨gives, -, named⟩ := fileCase?_gives ran
  have everything (name : Text) : ({ s with wildcards := [] } : Suite).chooses dir
      (.str name) = true := rfl
  unfold Suite.fileCase? at gives ⊢
  dsimp only at gives ⊢
  generalize Text.ofString (Files.stem (Files.baseName path)) = name at *
  by_cases chosen : allowed s.wildcards (Files.baseName dir) name = true
  · have kept : (o.filter fun c => allowed s.wildcards (Files.baseName dir) c.name) = o := by
      cases o with
      | none => rfl
      | some c => rw [Option.filter_some, named c rfl, if_pos chosen]
    have same : taken'.contains name = taken.contains name := by
      rw [Bool.eq_iff_iff, List.contains_iff_mem, List.contains_iff_mem, agree name chosen]
    rw [kept, same, show s.chooses dir (.str name) = true from chosen]
    exact gives
  · have left : (o.filter fun c => allowed s.wildcards (Files.baseName dir) c.name) = none := by
      cases o with
      | none => rfl
      | some c => rw [Option.filter_some, named c rfl, if_neg chosen]
    rw [left, show s.chooses dir (.str name) = false from Bool.eq_false_iff.mpr chosen,
      if_pos (by simp)]
    exact .value _

theorem fileCases_filtered {d : Json} {cases : List Case} (present : t.isDirectory dir = true)
    (agree : ∀ n, allowed s.wildcards (Files.baseName dir) n = true → (n ∈ taken' ↔ n ∈ taken))
    (ran : (Suite.fileCases t { s with wildcards := [] } dir taken d).run ws = .ok cases ws') :
    Gives (Suite.fileCases t s dir taken' d)
      (cases.filter fun c => allowed s.wildcards (Files.baseName dir) c.name) ∧
      ws <:+ ws' ∧ ∀ c ∈ cases, c.name ≠ [] := by
  unfold Suite.fileCases at ran ⊢
  obtain ⟨es, rfl⟩ := entries_of_fileCases ran
  rw [Suite.entriesOf_dict, pure_bind] at ran ⊢
  obtain ⟨extensions, required, ran⟩ := (Silent.elementsOf es "extensions").yields.run_bind.mp ran
  have walk := Walk.of_run ran
  rw [required, pure_bind]
  refine ⟨walk.gives fun _ _ _ _ _ ran => fileCase?_filtered agree ran,
    walk.suffix fun _ _ _ _ _ ran => (fileCase?_gives ran).2.1, fun c member => ?_⟩
  obtain ⟨path, found, ws, ws', ran⟩ := walk.source member
  rw [(fileCase?_gives ran).2.2 c rfl]
  rw [Suite.inOrder, List.mem_mergeSort] at found
  have code := Files.Glob.suffix_of_mem_paths (Tree.ne_empty_of_isDirectory present) found
  have ending := Files.suffix_baseName (by decide) code
  intro empty
  refine Files.stem_ne_empty ?_ (Text.ofString_injective empty)
  intro none
  rw [none] at ending
  cases List.suffix_nil.mp ending

end CodeFiles

namespace Suite

/-- Tests with different names keep their order when some of them are struck out before they are
sorted. -/
theorem mergeSort_filter {cases : List Case} (once : (cases.map (·.name)).Nodup) (p : Case → Bool) :
    (cases.filter p).mergeSort before = (cases.mergeSort before).filter p := by
  refine List.Perm.eq_of_pairwise ?_ (pairwise_before _) ((pairwise_before cases).filter p) ?_
  · intro a b first second forwards backwards
    have same : a.name = b.name := by
      rcases forwards with shorter | ⟨length, before⟩
      · omega
      · rcases backwards with longer | ⟨-, behind⟩
        · omega
        · exact List.le_antisymm before behind
    rw [List.mem_mergeSort] at first
    have second := List.mem_mergeSort.mp (List.mem_of_mem_filter second)
    exact List.inj_on_of_nodup_map once (List.mem_of_mem_filter first) second same
  · exact (List.mergeSort_perm _ _).trans ((List.mergeSort_perm cases before).filter p).symm

theorem opened_gives {directory : String} (present : t.isDirectory directory = true)
    (timeout : Json) (texts : List String) (nesting : Nat) :
    Gives (opened t directory timeout texts nesting)
      ⟨directory, timeout, (Wildcard.readAll texts).1, nesting⟩ := by
  unfold opened
  rw [if_neg (by simp [present])]
  have warned (refused : List String) : Gives (refused.forM fun s => warn (.wildcard s)) () := by
    induction refused with
    | nil => exact .value ()
    | cons s rest ih => exact .warned _ ih
  exact (warned _).bind (.value _)

theorem load_filtered {cases : List Case}
    (loaded : (load t { s with wildcards := [] } dir).run ws = .ok cases ws')
    (typed : ∀ m, .description m ∉ ws') (once : ∀ names, .conflict names ∉ ws') :
    Gives (load t s dir) (cases.filter fun c => allowed s.wildcards (Files.baseName dir) c.name) ∧
      ∀ c ∈ cases, c.name ≠ [] := by
  obtain ⟨present, d, gs, fs, ws₁, ws₂, ws₃, described, ofDescription, ofFiles, ends⟩ :=
    load_stages loaded
  obtain ⟨unique, rfl, rfl⟩ := ends.resolve_right fun ⟨_, _, names, same⟩ =>
    once names (same ▸ List.mem_cons_self)
  generalize chosen : (fun c : Case => allowed s.wildcards (Files.baseName dir) c.name) = p
  have agree (n : Text) (allows : allowed s.wildcards (Files.baseName dir) n = true) :
      n ∈ (gs.filter p).map (·.name) ↔ n ∈ gs.map (·.name) := by
    refine ⟨fun member => (List.filter_sublist.map _).subset member, fun member => ?_⟩
    obtain ⟨c, found, rfl⟩ := List.mem_map.mp member
    exact List.mem_map_of_mem (List.mem_filter.mpr ⟨found, chosen ▸ allows⟩)
  obtain ⟨files, adds, fileNames⟩ := fileCases_filtered present agree ofFiles
  obtain ⟨entries, entryNames⟩ := describedCases_filtered ofDescription fun m warned =>
    typed m (adds.subset warned)
  rw [chosen] at files entries
  constructor
  · intro us
    obtain ⟨us₁, described⟩ := (description_ok described).gives (s := s) us
    obtain ⟨us₂, ofDescription⟩ := entries us₁
    obtain ⟨us₃, ofFiles⟩ := files us₂
    refine ⟨us₃, ?_⟩
    have unique' : ((fs.filter p ++ gs.filter p).map (·.name)).Nodup := by
      rw [← List.filter_append]
      exact unique.sublist (List.filter_sublist.map _)
    rw [load_of_stages present described ofDescription ofFiles unique', ← List.filter_append,
      mergeSort_filter unique]
  · intro c member
    rw [List.mem_mergeSort, List.mem_append] at member
    exact member.elim (fileNames c) (entryNames c)

/-- Loading a section with wildcards, of which one is well formed, gives the tests that are loaded
without, except for those that fit no wildcard. -/
theorem selection_commutes {directory : String} {timeout : Json} {texts : List String}
    {nesting : Nat} {cases : List Case}
    (formed : ∃ text ∈ texts, (Files.names text).length ∈ [1, 2])
    (loaded : (do load t (← opened t directory timeout [] nesting) dir).run [] = .ok cases ws)
    (typed : ∀ m, .description m ∉ ws) (once : ∀ names, .conflict names ∉ ws) :
    ∃ ws', (do load t (← opened t directory timeout texts nesting) dir).run [] =
      .ok (cases.filter fun c => texts.any (Wildcard.fits (Files.baseName dir) c.name)) ws' := by
  have present : t.isDirectory directory = true := by
    by_contra absent
    rw [opened, if_pos (by simpa using absent)] at loaded
    cases loaded
  obtain ⟨s₀, us, opens, loaded⟩ := ran_bind loaded
  obtain ⟨_, opens'⟩ := opened_gives present timeout [] nesting []
  cases opens.symm.trans opens'
  have opening := opened_gives present timeout texts nesting
  obtain ⟨gives, named⟩ :=
    load_filtered (s := ⟨directory, timeout, (Wildcard.readAll texts).1, nesting⟩) loaded typed once
  obtain ⟨ws', ran⟩ := Gives.bind (f := fun s => load t s dir) opening gives []
  refine ⟨ws', ran.trans ?_⟩
  congr 1
  refine List.filter_congr fun c member => ?_
  exact Wildcard.allowed_readAll formed _ (named c member)

/-- Of these texts one is no wildcard and one fits no section; the others choose a test each. -/
def mixedTexts : List String := ["mix/b", "x/y/z", "tests", "ixed//003/"]

theorem mixedSection_selected :
    ∃ cases ws, (∃ text ∈ mixedTexts, (Files.names text).length ∈ [1, 2]) ∧
    (do load mixedSection (← opened mixedSection "/" (.int 5) [] 985) "mixed").run [] =
      .ok cases mixedWarnings ∧
    (∀ m, .description m ∉ mixedWarnings) ∧ (∀ names, .conflict names ∉ mixedWarnings) ∧
    cases.map (·.name) = ["a", "b", "003"].map Text.ofString ∧ ∃ chosen,
      (do load mixedSection (← opened mixedSection "/" (.int 5) mixedTexts 985) "mixed").run [] =
        .ok chosen ws ∧
        chosen.map (·.name) = ["b", "003"].map Text.ofString := by
  have formed : ∃ text ∈ mixedTexts, (Files.names text).length ∈ [1, 2] :=
    ⟨"mix/b", List.mem_cons_self, by decide +kernel⟩
  have typed (m : Mismatch) : .description m ∉ mixedWarnings := by simp [mixedWarnings]
  have once (names : List Text) : .conflict names ∉ mixedWarnings := by simp [mixedWarnings]
  obtain ⟨cases, loaded, names⟩ := load_of_stageNames (by decide +kernel) mixedNames_run (by decide)
  have whole : (opened mixedSection "/" (.int 5) [] 985).run [] = .ok wholeSuite [] := by
    rw [opened, if_neg (by decide +kernel)]
    rfl
  have loaded : (do load mixedSection (← opened mixedSection "/" (.int 5) [] 985) "mixed").run [] =
      .ok cases mixedWarnings := by
    rw [EStateM.run_bind, whole]
    exact loaded
  obtain ⟨ws, selected⟩ := selection_commutes formed loaded typed once
  refine ⟨cases, ws, formed, loaded, typed, once, names, _, selected, ?_⟩
  refine (List.filter_map (f := fun c : Case => c.name)
    (p := fun name => mixedTexts.any (Wildcard.fits (Files.baseName "mixed") name))).symm.trans ?_
  rw [names]
  decide +kernel

end Suite

end Bench
end TacBench
