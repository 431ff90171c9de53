import TacBench.Proofs.Numerals
import TacBench.Proofs.ReplacedFiles

/-! The files that accompany a test, and what is read of them once the exit code of one test has
been replaced. -/
namespace TacBench

theorem Text.unifyBreaks_ne_nil {s : List Char} (some : s ≠ []) : unifyBreaks s ≠ [] := by
  fun_cases unifyBreaks s with
  | case1 => exact absurd rfl some
  | case2 => exact List.cons_ne_nil _ _
  | case3 => exact List.cons_ne_nil _ _

namespace Integer

open Text

/-! Line breaks around a number are blanks, of whichever kind they are. -/

theorem dropWhile_unifyBreaks (s : List Char) :
    (unifyBreaks s).dropWhile isNumberBlank = unifyBreaks (s.dropWhile isNumberBlank) := by
  have feed : isNumberBlank '\n' = true := by decide
  have carriage : isNumberBlank '\r' = true := by decide
  fun_induction unifyBreaks s with
  | case1 => rfl
  | case2 r ih =>
    rw [List.dropWhile_cons_of_pos feed, List.dropWhile_cons_of_pos carriage,
      List.dropWhile_cons_of_pos feed, ih]
  | case3 c r single ih =>
    by_cases ends : c = '\r'
    · rw [if_pos ends, ends, List.dropWhile_cons_of_pos feed,
        List.dropWhile_cons_of_pos carriage, ih]
    · rw [if_neg ends]
      by_cases blank : isNumberBlank c = true
      · rw [List.dropWhile_cons_of_pos blank, List.dropWhile_cons_of_pos blank, ih]
      · rw [List.dropWhile_cons_of_neg blank, List.dropWhile_cons_of_neg blank, unifyBreaks,
          if_neg ends]
        exact single

theorem all_unifyBreaks (s : List Char) :
    (unifyBreaks s).all isNumberBlank = s.all isNumberBlank := by
  have feed : isNumberBlank '\n' = true := by decide
  have carriage : isNumberBlank '\r' = true := by decide
  fun_induction unifyBreaks s with
  | case1 => rfl
  | case2 r ih => simp only [List.all_cons, feed, carriage, ih, Bool.true_and]
  | case3 c r single ih =>
    rw [List.all_cons, List.all_cons, ih]
    split
    · rename_i ends
      rw [ends, feed, carriage]
    · rfl

theorem readDigits_unifyBreaks (s : List Char) (afterDigit : Bool) :
    readDigits digitValue? afterDigit (unifyBreaks s) = (readDigits digitValue? afterDigit s).map
    (Prod.map id unifyBreaks) := by
  -- a break of either kind ends the digits and is left with what follows
  have ending {c : Char} (other : digitValue? c = none ∧ c ≠ '_') (afterDigit : Bool)
    (r : List Char) :
      readDigits digitValue? afterDigit (c :: r) = if !afterDigit then none
        else some ([], c :: r) := by
    simp only [readDigits, other.1, other.2, if_false]
  have feed : digitValue? '\n' = none ∧ '\n' ≠ '_' := by decide
  have carriage : digitValue? '\r' = none ∧ '\r' ≠ '_' := by decide
  fun_induction unifyBreaks s generalizing afterDigit with
  | case1 => cases afterDigit <;> rfl
  | case2 r ih =>
    rw [ending feed, ending carriage]
    cases afterDigit with
    | false => rfl
    | true => simp [unifyBreaks]
  | case3 c r single ih =>
    by_cases ends : c = '\r'
    · subst ends
      rw [if_pos rfl, ending feed, ending carriage]
      cases afterDigit with
      | false => rfl
      | true => simp [unifyBreaks]
    · rw [if_neg ends]
      simp only [readDigits]
      cases digitValue? c with
      | some d => simp [ih, Function.comp_def]
      | none =>
        cases afterDigit with
        | false => rfl
        | true =>
          by_cases joins : c = '_'
          · simp [joins, ih]
          · simp [joins, unifyBreaks, ends]

theorem signed_unifyBreaks (s : List Char) :
    signed (unifyBreaks s) = Prod.map id unifyBreaks (signed s) := by
  fun_cases unifyBreaks s with
  | case1 => rfl
  | case2 r => rfl
  | case3 c r single =>
    by_cases minus : c = '-'
    · subst minus
      rfl
    · by_cases plus : c = '+'
      · subst plus
        rfl
      · have whole : unifyBreaks (c :: r) = (if c = '\r' then '\n' else c) :: unifyBreaks r := by
          rw [unifyBreaks]
          exact single
        rw [signed_other minus plus, Prod.map, whole]
        split
        · rfl
        · exact signed_other minus plus _

theorem ofText_unifyBreaks (s : List Char) : ofText (unifyBreaks s) = ofText s := by
  rw [ofText_eq, ofText_eq, dropWhile_unifyBreaks, signed_unifyBreaks]
  dsimp only [Prod.map]
  rw [readDigits_unifyBreaks]
  cases readDigits digitValue? false (signed (s.dropWhile isNumberBlank)).2 with
  | none => rfl
  | some read => simp [settled, all_unifyBreaks]

end Integer

theorem Files.stem_within (name : String) : (stem name).toList <+: name.toList := by
  unfold stem
  dsimp only
  split
  · rw [String.toList_ofList]
    conv_rhs => rw [← List.takeWhile_append_dropWhile (p := (· == '.')) (l := name.toList)]
    rw [List.prefix_append_right_inj, ← List.reverse_suffix, List.reverse_reverse]
    exact (List.drop_suffix 1 _).trans (List.dropWhile_suffix _)
  · exact List.prefix_refl _

theorem Files.plain_stem (path : String) : '/' ∉ (stem (baseName path)).toList := by
  intro member
  have kept := (stem_within (baseName path)).subset member
  rw [baseName, String.toList_ofList, List.mem_reverse] at kept
  have other := List.mem_takeWhile_imp kept
  simp at other

namespace Bench

open Files (Tree)

variable {t : Tree} {dir : String}

/-- The two exit codes of a test. -/
inductive ExitKind where
  | compiler
  | interpreter
  deriving DecidableEq, Repr

/-- The kind of the file that holds the exit code. -/
def ExitKind.file : ExitKind → String
  | .compiler => "cexitcode"
  | .interpreter => "iexitcode"

/-- The entry of a description that gives the exit code. -/
def ExitKind.key : ExitKind → String
  | .compiler => "compiler_exit_code"
  | .interpreter => "interpreter_exit_code"

/-- What an exit code file stands for: nothing for zero, anything else for the number that it
holds. -/
def exitOf (text : String) : Except Integer.TextFault Int :=
  if text.isEmpty then .ok 0 else Integer.ofText text.toList

/-- A text as it is read from a file of a test. -/
def loadedText (text : String) : Text := Text.ofChars (Text.unifyBreaks text.toList)

theorem integerOf_rejected {text : String} {f : Integer.TextFault}
    (rejected : exitOf text = .error f) :
    (loadedText text).isEmpty = false ∧
      integerOf (.str (loadedText text)) = throw (.integerText f (loadedText text)) := by
  unfold exitOf at rejected
  split at rejected
  · cases rejected
  · rename_i filled
    constructor
    · have kept := Text.unifyBreaks_ne_nil (s := text.toList) (by simpa using filled)
      simpa [loadedText, Text.ofChars] using kept
    · rw [integerOf, loadedText, Text.seen_ofChars, Integer.ofText_unifyBreaks, rejected]

/-- The path of the file of this kind that accompanies a test, if a file can have the name. -/
def pathOf? (dir : String) (name : Text) (kind : String) : Option String := do
  let bytes ← name.mapM Utf8.nameBytes?
  let file ← (Utf8.decode bytes.flatten).toOption
  return Files.join dir (file ++ "." ++ kind)

/-- Where it stands. -/
def fileOf? (t : Tree) (dir : String) (name : Text) (kind : String) : Option Files.Location :=
  (pathOf? dir name kind).bind fun path => (t.locate path).toOption

/-- The kinds of files that accompany a test. -/
def kinds : List String := ["code", "stdin", "stdout", "cexitcode", "iexitcode", "info"]

theorem suffix_pathOf? {name : Text} {kind path : String}
    (own : pathOf? dir name kind = some path) :
    ("." ++ kind).toList <:+ path.toList := by
  simp only [pathOf?, Option.bind_eq_bind, Option.bind_eq_some_iff, Option.pure_def,
    Option.some.injEq] at own
  obtain ⟨bytes, -, file, -, rfl⟩ := own
  refine List.IsSuffix.trans ?_ (Files.suffix_join dir _)
  have whole : (file ++ "." ++ kind).toList = file.toList ++ ("." ++ kind).toList := by
    rw [String.append_assoc, String.toList_append]
  rw [whole]
  exact List.suffix_append _ _

/-- The file of a test whose name is a string has that name. -/
theorem pathOf?_ofString (dir base kind : String) :
    pathOf? dir (Text.ofString base) kind = some (Files.join dir (base ++ "." ++ kind)) := by
  have bytes : (Text.ofString base).mapM Utf8.nameBytes? =
      some (base.toList.map fun c => Utf8.encode (String.singleton c)) := by
    rw [Text.ofString, Text.ofChars]
    induction base.toList with
    | nil => rfl
    | cons c r ih =>
      have first : Utf8.nameBytes? (.char c) = some (Utf8.encode (String.singleton c)) := rfl
      simp [first, ih]
  have whole : (base.toList.map fun c => Utf8.encode (String.singleton c)).flatten =
      Utf8.encode base := by
    simp [Utf8.encode_eq, List.flatMap]
  rw [pathOf?, bytes]
  simp [whole, Utf8.decode_encode, Except.toOption]

theorem caseFile_of_path {name : Text} {kind path : String}
    (own : pathOf? dir name kind = some path) (t : Tree) :
    caseFile t dir name kind = (do
      let text ← fileText t path
      return Text.ofChars (Text.unifyBreaks (text.getD "").toList)) := by
  simp only [pathOf?, Option.bind_eq_bind, Option.bind_eq_some_iff, Option.pure_def,
    Option.some.injEq] at own
  obtain ⟨bytes, written, file, decoded, rfl⟩ := own
  have named : fileName name = pure (some file) := by
    rw [fileName, written]
    dsimp only
    rw [decoded]
  rw [caseFile, named, pure_bind]

/-- A name that no file has is not looked for. -/
theorem caseFile_of_none {name : Text} {kind : String} (none : pathOf? dir name kind = none)
    (t t' : Tree) :
    caseFile t dir name kind = caseFile t' dir name kind := by
  have unnamed : (∃ f, fileName name = throw f) ∨ fileName name = pure .none := by
    unfold fileName
    cases written : name.mapM Utf8.nameBytes? with
    | none => exact .inl ⟨_, rfl⟩
    | some bytes =>
      cases decoded : (Utf8.decode bytes.flatten).toOption with
      | none => exact .inr (congrArg pure decoded)
      | some file => simp [pathOf?, written, decoded] at none
  rw [caseFile, caseFile]
  rcases unnamed with ⟨f, failed⟩ | nameless
  · rw [failed, throw_bind, throw_bind]
  · rw [nameless, pure_bind, pure_bind]

/-! What is read once the exit code of a test has been replaced. -/

section Replaced

variable {l : Files.Location} {old content : List UInt8} (there : t.node? l = some (.file old))

include there

theorem fileText_replaced_other {path : String} (other : t.locate path ≠ .ok l) :
    fileText (t.put l content) path = fileText t path := by
  rw [fileText, fileText, Tree.read_replaced_other there other]

theorem fileText_replaced_self {path text : String} (located : t.locate path = .ok l)
    (decoded : Utf8.decode content = .ok text) :
    fileText (t.put l content) path = pure (some text) := by
  rw [fileText, Tree.read_replaced_self there located]
  dsimp only
  rw [decoded]

theorem caseFile_replaced_other {name : Text} {kind : String}
    (other : fileOf? t dir name kind ≠ some l) :
    caseFile (t.put l content) dir name kind = caseFile t dir name kind := by
  cases own : pathOf? dir name kind with
  | none => exact caseFile_of_none own _ _
  | some path =>
    have elsewhere : t.locate path ≠ .ok l := by
      intro located
      simp [fileOf?, own, located, Except.toOption] at other
    rw [caseFile_of_path own, caseFile_of_path own, fileText_replaced_other there elsewhere]

theorem caseFile_replaced_self {name : Text} {kind text : String}
    (own : fileOf? t dir name kind = some l) (decoded : Utf8.decode content = .ok text) :
    caseFile (t.put l content) dir name kind = pure (loadedText text) := by
  obtain ⟨path, named, located⟩ := Option.bind_eq_some_iff.mp own
  rw [caseFile_of_path named, fileText_replaced_self there (eq_ok_of_toOption located) decoded]
  rfl

end Replaced

/-- A name that ends like the exit code files of a kind. -/
def ExitKind.Ends (kind : ExitKind) (l : Files.Location) : Prop :=
  ∃ name up, l = name :: up ∧ ("." ++ kind.file).toList <:+ name.toList

theorem ExitKind.ending_plain (kind : ExitKind) :
    '/' ∉ ("." ++ kind.file).toList ∧ 2 < ("." ++ kind.file).toList.length := by
  cases kind <;> decide

theorem ExitKind.ends_of_fileOf? {kind : ExitKind} {name : Text} {l : Files.Location}
    (own : fileOf? t dir name kind.file = some l) : kind.Ends l := by
  obtain ⟨path, named, located⟩ := Option.bind_eq_some_iff.mp own
  obtain ⟨up, rfl, ends⟩ := Tree.suffix_of_located kind.ending_plain.1 kind.ending_plain.2
    (suffix_pathOf? named)
    (eq_ok_of_toOption located)
  exact ⟨_, up, rfl, ends⟩

theorem ExitKind.endings_differ (kind : ExitKind) : ∀ ending ∈ "tests.json" :: kinds.map ("." ++ ·),
    ending ≠ "." ++ kind.file → '/' ∉ ending.toList ∧ 2 < ending.toList.length ∧
      ¬ ending.toList <:+ ("." ++ kind.file).toList ∧
      ¬ ("." ++ kind.file).toList <:+ ending.toList := by
  cases kind <;> decide +kernel

/-- Nothing with another ending stands there. -/
theorem ExitKind.Ends.elsewhere {kind : ExitKind} {l : Files.Location} (ends : kind.Ends l)
    {ending : String} (other : ending ∈ "tests.json" :: kinds.map ("." ++ ·))
    (differ : ending ≠ "." ++ kind.file) {path : String}
    (named : ending.toList <:+ path.toList) : t.locate path ≠ .ok l := by
  intro located
  have shape := kind.endings_differ ending other differ
  obtain ⟨name, up, rfl, ends⟩ := ends
  obtain ⟨up', same, ends'⟩ := Tree.suffix_of_located shape.1 shape.2.1 named located
  rw [← (List.cons.inj same).1] at ends'
  rcases List.suffix_or_suffix_of_suffix ends ends' with inner | inner
  · exact shape.2.2.2 inner
  · exact shape.2.2.1 inner

section Kinds

variable {kind : ExitKind} {l : Files.Location} {old content : List UInt8}
  (there : t.node? l = some (.file old)) (ends : kind.Ends l)

include there ends

theorem caseFile_replaced_kind {kind' : String} (other : kind' ∈ kinds) (differ : kind' ≠ kind.file)
    (name : Text) :
    caseFile (t.put l content) dir name kind' = caseFile t dir name kind' := by
  refine caseFile_replaced_other there fun own => ?_
  obtain ⟨path, named, located⟩ := Option.bind_eq_some_iff.mp own
  refine ends.elsewhere (List.mem_cons_of_mem _ (List.mem_map_of_mem other)) ?_
    (suffix_pathOf? named)
    (eq_ok_of_toOption located)
  intro same
  have chars := congrArg String.toList same
  rw [String.toList_append, String.toList_append] at chars
  exact differ (String.toList_inj.mp (List.append_cancel_left chars))

/-- What is no exit code is read as before. -/
theorem caseFile_replaced_text (kind' : String)
    (other : kind' ∈ ["code", "stdin", "stdout", "info"]) (name : Text) :
    caseFile (t.put l content) dir name kind' = caseFile t dir name kind' := by
  have differ : ∀ kind' ∈ ["code", "stdin", "stdout", "info"], kind' ∈ kinds ∧
      kind' ≠ kind.file := by
    cases kind <;> decide
  exact caseFile_replaced_kind there ends (differ kind' other).1 (differ kind' other).2 name

theorem fileText_replaced_code {path : String} (code : ".code".toList <:+ path.toList) :
    fileText (t.put l content) path = fileText t path := by
  refine fileText_replaced_other there (ends.elsewhere ?_ ?_ code)
  · decide
  · cases kind <;> decide

theorem description_replaced (s : Suite) :
    s.description (t.put l content) dir = s.description t dir := by
  have elsewhere : t.locate (Suite.descriptionFile dir) ≠ .ok l :=
    ends.elsewhere List.mem_cons_self (by cases kind <;> decide)
      (Files.suffix_join dir "tests.json")
  rw [Suite.description, Suite.description, fileText_replaced_other there elsewhere]

end Kinds

/-- A string that names a file in the directory itself. -/
def PlainName (name : Text) : Prop := ∃ base : String, '/' ∉ base.toList ∧ name = Text.ofString base

/-- Plain names have files of their own. -/
theorem fileOf?_inj {kind : ExitKind} {l : Files.Location} {name name' : Text} (some : dir ≠ "")
    (plain : PlainName name) (plain' : PlainName name')
    (own : fileOf? t dir name kind.file = .some l)
    (own' : fileOf? t dir name' kind.file = .some l) : name = name' := by
  have last {base : String} (plain : '/' ∉ base.toList)
      (own : fileOf? t dir (Text.ofString base) kind.file = .some l) :
      l.head? = .some (base ++ ("." ++ kind.file)) := by
    have simple : '/' ∉ (base ++ ("." ++ kind.file)).toList := by
      rw [String.toList_append, List.mem_append]
      exact not_or.mpr ⟨plain, kind.ending_plain.1⟩
    obtain ⟨path, written, located⟩ := Option.bind_eq_some_iff.mp own
    obtain ⟨up, rfl, -⟩ := Tree.suffix_of_located kind.ending_plain.1 kind.ending_plain.2
      (suffix_pathOf? written)
      (eq_ok_of_toOption located)
    rw [pathOf?_ofString, String.append_assoc] at written
    rw [← Option.some.inj written, Files.baseName_join some simple]
    rfl
  obtain ⟨base, simple, rfl⟩ := plain
  obtain ⟨base', simple', rfl⟩ := plain'
  have same :=
    congrArg String.toList (Option.some.inj ((last simple own).symm.trans (last simple' own')))
  have split (b : String) : (b ++ ("." ++ kind.file)).toList = b.toList ++
      ("." ++ kind.file).toList :=
    String.toList_append
  rw [split, split] at same
  exact congrArg Text.ofString (String.toList_inj.mp (List.append_cancel_right same))

end Bench
end TacBench
