import TacBench.Json.Snapshot
import TacBench.Proofs.HexNumbers
import TacBench.Proofs.InputValues
import TacBench.Proofs.Surface

/-! The forms of operands. A text is an operand of one kind exactly if it has the form of that kind,
and the operand then has the fields of its kind and no others. Of the texts that are no operands,
constants with a foreign letter in the keyword and hexadecimal constants beyond the range of numbers
are refused for that; all others are invalid. -/
namespace TacBench

namespace Text

variable {word k : List Char} {c : Char}

theorem foldAscii_of_ascii (ascii : c.toNat < 128) : foldAscii c = c.toLower := by
  have table : ∀ n < 128, foldAscii (Char.ofNat n) = (Char.ofNat n).toLower := by decide
  have same := table c.toNat ascii
  rwa [Char.ofNat_toNat] at same

theorem toLower_of_foreign (foreign : 128 ≤ c.toNat) : 128 ≤ c.toLower.toNat := by
  have agreed := agrees_toLower (g := fun c => decide (128 ≤ c.toNat)) (by decide) c
  simpa [foreign] using agreed

/-- Only letters from outside ASCII make a difference between the two ways to ignore case. -/
theorem spelledAs_of_spells {word : String} (like : spells word.toList k = true)
    (ascii : ∀ c ∈ k, c.toNat < 128) : SpelledAs word k := by
  have folded : k.map foldAscii = word.toList := by simpa [spells] using like
  rw [SpelledAs, ← folded]
  exact List.map_congr_left fun c member => (foldAscii_of_ascii (ascii c member)).symm

theorem not_mem_of_spells (like : spells word k = true) (plain : foldAscii c = c)
    (other : c ∉ word) :
    c ∉ k := by
  intro member
  have folded : k.map foldAscii = word := by simpa [spells] using like
  have inside : foldAscii c ∈ k.map foldAscii := List.mem_map_of_mem member
  rw [folded, plain] at inside
  exact other inside

end Text

def Json.isNull : Json → Bool
  | .null => true
  | _ => false

namespace Operand

open Text

variable {t : DataType} {k s rest word : List Char} {v : Value} {o : Operand}

theorem isKeywordLike_iff : isKeywordLike k = true ↔ ∃ t :
    DataType, spells t.keyword.toList k = true := by
  have complete (t : DataType) : t ∈ DataType.all := by cases t <;> decide
  rw [isKeywordLike, List.any_eq_true]
  constructor
  · rintro ⟨t, -, like⟩
    exact ⟨t, like⟩
  · rintro ⟨t, like⟩
    exact ⟨t, complete t, like⟩

theorem keyword?_eq_some_iff : keyword? k = some t ↔ SpelledAs t.keyword k := by
  constructor
  · intro found
    have named := List.find?_some found
    exact (of_decide_eq_true named).symm
  · exact keyword?_of_spelled

theorem keyword?_of_foreign (foreign : ∃ c ∈ k, 128 ≤ c.toNat) : keyword? k = none := by
  obtain ⟨c, member, beyond⟩ := foreign
  have ascii (t : DataType) : t.keyword.toList.all (·.toNat < 128) = true := by cases t <;> decide
  refine Option.eq_none_iff_forall_ne_some.mpr fun t named => ?_
  have spelled := keyword?_eq_some_iff.mp named
  have inside : c.toLower ∈ k.map Char.toLower := List.mem_map_of_mem member
  rw [spelled] at inside
  have low : c.toLower.toNat < 128 := by simpa using List.all_eq_true.mp (ascii t) _ inside
  have high := toLower_of_foreign beyond
  omega

theorem foreign_of_keyword? (like : spells t.keyword.toList k = true)
    (unnamed : keyword? k = none) :
    ∃ c ∈ k, 128 ≤ c.toNat := by
  by_contra ascii
  push Not at ascii
  have spelled := spelledAs_of_spells like ascii
  rw [keyword?_of_spelled spelled] at unnamed
  cases unnamed

/-- The word with a line feed behind it or without. -/
def Ended (word s : List Char) : Prop := s = word ∨ s = word ++ ['\n']

theorem ended_withoutFinalBreak (s : List Char) : Ended (withoutFinalBreak s) s := by
  unfold withoutFinalBreak
  split
  · rename_i last
    obtain ⟨front, rfl⟩ := List.getLast?_eq_some_iff.mp last
    rw [List.dropLast_concat]
    exact .inr rfl
  · exact .inl rfl

theorem Ended.withoutFinalBreak (ended : Ended word s) (single : '\n' ∉ word) :
    withoutFinalBreak s = word := by
  rcases ended with rfl | rfl
  · exact withoutFinalBreak_of_not_mem single
  · simp [Operand.withoutFinalBreak]

/-- What stands behind the mark of a constant of each type, and its value. -/
inductive Literal : DataType → List Char → Value → Prop where
  | truth (b : Bool) {s : List Char} (spelled : SpelledAs (toString b) s) :
      Literal .bool s (.bool b)
  | integer {s : List Char} {n : Int} (read : Integer.ofText s = .ok n) : Literal .int s (.int n)
  | decimal {s : List Char} {x : Binary64} (read : Binary64.ofText? s = some x) :
      Literal .float s (.float x)
  | hexadecimal {s : List Char} {x : Binary64} (other : Binary64.ofText? s = none)
      (read : Binary64.ofHexText s = .ok x) : Literal .float s (.float x)
  | text (s : List Char) : Literal .string s (.str (Text.ofChars (unescape s)))

theorem Literal.kind (literal : Literal t s v) : v.kind = t.kind := by
  cases literal <;> rfl

theorem readConstant_of_literal (literal : Literal t s v) : readConstant t s = .ok v := by
  cases literal with
  | truth b spelled =>
    simp only [readConstant, show s.map Char.toLower = _ from spelled]
    cases b <;> rfl
  | integer read => simp only [readConstant, read]
  | decimal read => simp only [readConstant, readFloat, read]
  | hexadecimal other read => simp only [readConstant, readFloat, other, read]
  | text => rfl

theorem literal_of_readConstant (read : readConstant t s = .ok v) : Literal t s v := by
  cases t with
  | bool =>
    simp only [readConstant] at read
    split at read
    · rename_i word
      cases read
      exact .truth true word
    · split at read
      · rename_i word
        cases read
        exact .truth false word
      · cases read
  | int =>
    simp only [readConstant] at read
    split at read
    · rename_i number
      cases read
      exact .integer number
    · cases read
  | float =>
    simp only [readConstant, readFloat] at read
    cases decimal : Binary64.ofText? s with
    | some x =>
      rw [decimal] at read
      cases read
      exact .decimal decimal
    | none =>
      rw [decimal] at read
      dsimp only at read
      split at read
      · rename_i number
        cases read
        exact .hexadecimal decimal number
      · cases read
      · cases read
  | string =>
    cases read
    exact .text s

/-- The operand that a text denotes, by the form of the text. -/
inductive Denotes : List Char → Operand → Prop where
  | constant {t : DataType} {k s rest : List Char} {v : Value} (keyword : SpelledAs t.keyword k)
      (single : '\n' ∉ s) (ended : Ended s rest) (literal : Literal t s v) :
      Denotes (k ++ '@' :: rest) (.constant v)
  | var (f : FrameRef) {name rest : List Char} (identifier : isIdentifier name = true)
      (ended : Ended name rest) : Denotes (f.spelling.toList ++ '@' :: rest)
        (.var f (String.ofList name))
  | dataType {t : DataType} {k s : List Char} (keyword : SpelledAs t.keyword k)
      (ended : Ended k s) :
      Denotes s (.dataType t)
  | label {word s : List Char} (identifier : isIdentifier word = true)
      (plain : isKeywordLike word = false) (ended : Ended word s) :
      Denotes s (.label (String.ofList s))

/-- Constants whose keyword has a letter from outside ASCII that stands for one of it. -/
inductive ForeignConstant : List Char → Prop where
  | intro {t : DataType} {k s rest : List Char} (like : spells t.keyword.toList k = true)
      (foreign : ∃ c ∈ k, 128 ≤ c.toNat) (single : '\n' ∉ s) (ended : Ended s rest) :
      ForeignConstant (k ++ '@' :: rest)

/-- Hexadecimal constants beyond the largest number. -/
inductive ImmenseConstant : List Char → Prop where
  | intro {k s rest : List Char} {digits : Nat} {exponent : Int}
      (keyword : SpelledAs DataType.float.keyword k) (single : '\n' ∉ s) (ended : Ended s rest)
      (other : Binary64.ofText? s = none) (number : Binary64.Hexadecimal s digits exponent)
      (large : Binary64.TooLarge digits exponent) : ImmenseConstant (k ++ '@' :: rest)

/-- What can come of a text. -/
inductive Reading (s : List Char) : Except Fault Operand → Prop where
  | denoted {o : Operand} (denotes : Denotes s o) : Reading s (.ok o)
  | foreign (constant : ForeignConstant s) : Reading s (.error .unknownKeyword)
  | immense (constant : ImmenseConstant s) : Reading s (.error .hexadecimalRange)
  | invalid : Reading s (.error .invalid)

/-! Every text is read in one of these ways -/

theorem readConstant_error {f : Fault} (failed : readConstant t s = .error f) :
    f = .invalid ∨ f = .hexadecimalRange ∧ t = .float ∧ Binary64.ofText? s = none ∧
      Binary64.ofHexText s = .error .overflow := by
  cases t with
  | bool =>
    simp only [readConstant] at failed
    repeat' split at failed
    all_goals cases failed
    exact .inl rfl
  | int =>
    simp only [readConstant] at failed
    split at failed <;> cases failed
    exact .inl rfl
  | float =>
    simp only [readConstant, readFloat] at failed
    cases decimal : Binary64.ofText? s with
    | some x =>
      rw [decimal] at failed
      cases failed
    | none =>
      rw [decimal] at failed
      dsimp only at failed
      split at failed
      · cases failed
      · cases failed
        exact .inl rfl
      · rename_i overflow
        cases failed
        exact .inr ⟨rfl, rfl, rfl, overflow⟩
  | string => cases failed

theorem reading_of_parseConstant {r : Except Fault Operand}
    (parsed : parseConstant k rest = some r) :
    Reading (k ++ '@' :: rest) r := by
  have ended := ended_withoutFinalBreak rest
  unfold parseConstant at parsed
  dsimp only at parsed
  split at parsed
  · cases parsed
  · rename_i form
    have like : isKeywordLike k = true := by
      by_contra other
      exact form (by simp [other])
    have single : '\n' ∉ withoutFinalBreak rest := by
      intro inside
      exact form (by simp [inside])
    split at parsed
    · rename_i t named
      have keyword := keyword?_eq_some_iff.mp named
      cases parsed
      cases read : readConstant t (withoutFinalBreak rest) with
      | ok v => exact .denoted (.constant keyword single ended (literal_of_readConstant read))
      | error f =>
        rcases readConstant_error read with rfl | ⟨rfl, rfl, other, overflow⟩
        · exact .invalid
        · obtain ⟨digits, exponent, number, large⟩ := Binary64.ofHexText_overflow_iff.mp overflow
          exact .immense (.intro keyword single ended other number large)
    · rename_i unnamed
      obtain ⟨t, like⟩ := isKeywordLike_iff.mp like
      cases parsed
      exact .foreign (.intro like (foreign_of_keyword? like unnamed) single ended)

theorem letter_of_toUpper {kind : FrameKind} {c : Char} (capital : kind.letter = c.toUpper) :
    c = kind.letter ∨ c = kind.letter.toLower := by
  by_cases small : 97 ≤ c.toNat ∧ c.toNat ≤ 122
  · have table : ∀ n < 123, 97 ≤ n → kind.letter = (Char.ofNat n).toUpper →
        Char.ofNat n = kind.letter.toLower := by cases kind <;> decide
    have found := table c.toNat (by omega) small.1
    rw [Char.ofNat_toNat] at found
    exact .inr (found capital)
  · have same : c.toUpper = c := by
      unfold Char.toUpper
      exact dif_neg small
    rw [same] at capital
    exact .inl capital.symm

theorem spelling_of_frameRef? {f : FrameRef} (found : frameRef? k = some f) :
    f.spelling.toList = k := by
  unfold frameRef? at found
  split at found
  · rename_i a b
    split at found
    · rename_i second
      obtain ⟨kind, listed, rfl⟩ := Option.map_eq_some_iff.mp found
      have letter : kind.letter = a.toUpper := by simpa using List.find?_some listed
      have distinct : kind.letter.toLower ≠ kind.letter := by cases kind <;> decide
      rw [FrameRef.spelling, String.toList_ofList]
      congr 1
      · rcases letter_of_toUpper letter with rfl | rfl
        · simp
        · simp [distinct.symm]
      · rcases second with rfl | rfl <;> rfl
    · cases found
  · cases found

theorem denotes_of_parseVariable (parsed : parseVariable k rest = some o) :
    Denotes (k ++ '@' :: rest) o := by
  unfold parseVariable at parsed
  dsimp only at parsed
  split at parsed
  · rename_i f found
    split at parsed
    · rename_i identifier
      cases parsed
      rw [← spelling_of_frameRef? found]
      exact .var f identifier (ended_withoutFinalBreak rest)
    · cases parsed
  · cases parsed

theorem reading_parseWord (s : List Char) : Reading s (parseWord s) := by
  have ended := ended_withoutFinalBreak s
  unfold parseWord
  dsimp only
  split
  · split
    · rename_i t named
      exact .denoted (.dataType (keyword?_eq_some_iff.mp named) ended)
    · exact .invalid
  · rename_i plain
    split
    · rename_i identifier
      exact .denoted (.label identifier (by simpa using plain) ended)
    · exact .invalid

theorem parse_unmarked (unmarked : '@' ∉ s) : parse (String.ofList s) = parseWord s := by
  have behind : s.dropWhile (· != '@') = [] :=
    List.dropWhile_eq_nil_iff.mpr (bne_of_not_mem unmarked)
  simp only [parse, String.toList_ofList, behind]

theorem reading_parse (s : List Char) : Reading s (parse (String.ofList s)) := by
  by_cases marked : '@' ∈ s
  · obtain ⟨before, after, rfl, unmarked⟩ := List.eq_append_cons_of_mem marked
    rw [parse_marked unmarked]
    cases constant : parseConstant before after with
    | some r => exact reading_of_parseConstant constant
    | none =>
      cases named : parseVariable before after with
      | some o => exact .denoted (denotes_of_parseVariable named)
      | none => exact .invalid
  · rw [parse_unmarked marked]
    exact reading_parseWord s

/-! Each form is read as what it denotes -/

theorem frameRef?_spelling (f : FrameRef) : frameRef? f.spelling.toList = some f := by
  obtain ⟨kind, first, second⟩ := f
  cases kind <;> cases first <;> cases second <;> decide

theorem spelling_spelled (f : FrameRef) : SpelledAs f.kind.small f.spelling.toList := by
  obtain ⟨kind, first, second⟩ := f
  cases kind <;> cases first <;> cases second <;> decide

theorem break_not_mem_of_isIdentifier (identifier : isIdentifier s = true) : '\n' ∉ s :=
  not_mem_of_isIdentifier (by decide) (by decide) identifier

theorem not_mem_of_ended {c : Char} (ended : Ended word s) (absent : c ∉ word) (other : c ≠ '\n') :
    c ∉ s := by
  rcases ended with rfl | rfl
  · exact absent
  · simpa [absent] using other

theorem parse_of_denotes (denotes : Denotes s o) : parse (String.ofList s) = .ok o := by
  cases denotes with
  | constant keyword single ended literal =>
    rw [parse_constant keyword, ended.withoutFinalBreak single, readConstant_of_literal literal,
      if_neg (by simpa using single)]
    rfl
  | @var f name rest identifier ended =>
    have spelled := spelling_spelled f
    have unmarked : '@' ∉ f.spelling.toList :=
      spelled.not_mem (by decide) (by cases f.kind <;> decide)
    have unbroken := break_not_mem_of_isIdentifier identifier
    have untyped : parseConstant f.spelling.toList rest = none := by
      simp [parseConstant, not_isKeywordLike_of_frame spelled]
    rw [parse_marked unmarked, untyped]
    simp only [parseVariable, frameRef?_spelling, ended.withoutFinalBreak unbroken, identifier]
    rfl
  | @dataType t k s keyword ended =>
    have unmarked := not_mem_of_ended ended (not_marked_of_keyword keyword) (by decide)
    have unbroken : '\n' ∉ k := keyword.not_mem (by decide) (by cases t <;> decide)
    rw [parse_unmarked unmarked]
    simp only [parseWord, ended.withoutFinalBreak unbroken, isKeywordLike_of_spelled keyword,
      keyword?_of_spelled keyword, if_true]
  | label identifier plain ended =>
    have unmarked := not_mem_of_ended ended (at_not_mem_of_isIdentifier identifier) (by decide)
    have unbroken := break_not_mem_of_isIdentifier identifier
    rw [parse_unmarked unmarked]
    simp [parseWord, ended.withoutFinalBreak unbroken, plain, identifier]

theorem parse_of_foreign (constant : ForeignConstant s) :
    parse (String.ofList s) = .error .unknownKeyword := by
  cases constant with
  | @intro t k s rest like foreign single ended =>
    have unmarked : '@' ∉ k := not_mem_of_spells like (by decide) (by cases t <;> decide)
    have recognised := isKeywordLike_iff.mpr ⟨t, like⟩
    rw [parse_marked unmarked]
    simp [parseConstant, recognised, ended.withoutFinalBreak single, single,
      keyword?_of_foreign foreign]

theorem parse_of_immense (constant : ImmenseConstant s) :
    parse (String.ofList s) = .error .hexadecimalRange := by
  cases constant with
  | intro keyword single ended other number large =>
    have overflow := Binary64.ofHexText_overflow_iff.mpr ⟨_, _, number, large⟩
    rw [parse_constant keyword, ended.withoutFinalBreak single, if_neg (by simpa using single)]
    simp [readConstant, readFloat, other, overflow, Except.map]

/-! The fields of an operand -/

/-- The names of the fields that an operand has set. -/
def setFields (o : Operand) : List String :=
  (o.toFields.filter fun field => !field.2.isNull).map Prod.fst

/-- An operand of one kind, with what belongs to that kind and nothing else. -/
inductive WellFormed (text : String) : Operand → Prop where
  | constant {t : DataType} {k rest : List Char} {v : Value}
      (split : text.toList = k ++ '@' :: rest)
      (keyword : SpelledAs t.keyword k) (kind : v.kind = t.kind)
      (fields : (Operand.constant v).setFields = ["type", "value"]) : WellFormed text (.constant v)
  | var {f : FrameRef} {name : String} (frame : SpelledAs f.kind.small f.spelling.toList)
      (named : name ≠ "") (fields : (Operand.var f name).setFields = ["type", "frame", "name"]) :
      WellFormed text (.var f name)
  | dataType {t : DataType} (fields : (Operand.dataType t).setFields = ["type", "data_type"]) :
      WellFormed text (.dataType t)
  | label (fields : (Operand.label text).setFields = ["type", "label"]) :
      WellFormed text (.label text)

theorem isNull_of_kind (kind : v.kind = t.kind) : v.toJson.isNull = false := by
  cases v with
  | none => cases t <;> cases kind
  | bool => rfl
  | int n =>
    rw [Value.toJson]
    split <;> rfl
  | float => rfl
  | str => rfl

theorem setFields_constant (given : v.toJson.isNull = false) :
    (Operand.constant v).setFields = ["type", "value"] := by
  have kind : Json.isNull (.str "CONSTANT") = false := rfl
  have missing : Json.isNull .null = true := rfl
  simp [setFields, toFields, given, kind, missing]

theorem Denotes.wellFormed (denotes : Denotes s o) : WellFormed (String.ofList s) o := by
  cases denotes with
  | constant keyword single ended literal =>
    exact .constant String.toList_ofList keyword literal.kind
      (setFields_constant (isNull_of_kind literal.kind))
  | var f identifier ended =>
    refine .var (spelling_spelled f) ?_ rfl
    intro empty
    rw [String.ofList_eq_empty_iff] at empty
    rw [empty] at identifier
    cases identifier
  | dataType => exact .dataType rfl
  | label => exact .label rfl

/-- A text is an operand exactly if it has the form of one, and the operand has the fields of its
kind and no others. Of the other texts, constants with a foreign letter in the keyword and
hexadecimal constants beyond the range have faults of their own; the rest is invalid. -/
theorem parse_by_form (text : String) :
    (∀ o, parse text = .ok o ↔ Denotes text.toList o) ∧
    (∀ o, parse text = .ok o → WellFormed text o) ∧
    (parse text = .error .unknownKeyword ↔ ForeignConstant text.toList) ∧
    (parse text = .error .hexadecimalRange ↔ ImmenseConstant text.toList) ∧
    (parse text = .error .invalid ↔ (∀ o, ¬ Denotes text.toList o) ∧
      ¬ ForeignConstant text.toList ∧ ¬ ImmenseConstant text.toList) := by
  have reading := reading_parse text.toList
  have denoted (o : Operand) := @parse_of_denotes text.toList o
  have foreign := @parse_of_foreign text.toList
  have immense := @parse_of_immense text.toList
  have formed (o : Operand) := @Denotes.wellFormed text.toList o
  rw [String.ofList_toList] at reading foreign immense
  simp only [String.ofList_toList] at denoted formed
  generalize parse text = r at *
  refine ⟨fun o => ⟨?_, denoted o⟩, ?_, ⟨?_, foreign⟩, ⟨?_, immense⟩, ?_, ?_⟩
  · rintro rfl
    cases reading with
    | denoted denotes => exact denotes
  · rintro o rfl
    cases reading with
    | denoted denotes => exact formed o denotes
  · rintro rfl
    cases reading with
    | foreign constant => exact constant
  · rintro rfl
    cases reading with
    | immense constant => exact constant
  · rintro rfl
    refine ⟨?_, ?_, ?_⟩
    · intro o denotes
      cases denoted o denotes
    · intro constant
      cases foreign constant
    · intro constant
      cases immense constant
  · rintro ⟨shapeless, plain, small⟩
    cases reading with
    | denoted denotes => exact absurd denotes (shapeless _)
    | foreign constant => exact absurd constant plain
    | immense constant => exact absurd constant small
    | invalid => rfl

/-- A keyword with a long s is taken for one and names no type; a hexadecimal power of two is one
too large. -/
theorem escaping_constants : parse "ſtring@a" = .error .unknownKeyword ∧
    parse "float@0x1p1024" = .error .hexadecimalRange := by
  constructor
  · decide
  · decide

end Operand
end TacBench
