import Mathlib.Algebra.BigOperators.Group.List.Basic
import Mathlib.Data.List.Nodup
import Mathlib.Data.List.Perm.Subperm
import TacBench.Bench.ManyParameters
import TacBench.Proofs.Numerals
import TacBench.Proofs.Words

/-! Programs with many parameters. The names of the parameters are the first words of up to a length
that gives as many words as there are to be parameters. Words that are reserved are then left out,
and those that are shorter make up for them; only for one letter there are none that are shorter,
and for a single parameter the length is zero. -/
namespace TacBench.Bench.ManyParameters

/-! The words of a length -/

theorem mem_wordsOfLength {n : Nat} {w : List Char} :
    w ∈ wordsOfLength n ↔ w.length = n ∧ ∀ c ∈ w, c ∈ letters := by
  induction n generalizing w with
  | zero => simp +contextual [wordsOfLength]
  | succ n ih =>
    simp only [wordsOfLength, List.mem_flatMap, List.mem_map, ih]
    constructor
    · rintro ⟨c, letter, w, ⟨length, plain⟩, rfl⟩
      exact ⟨by simp [length], List.forall_mem_cons.mpr ⟨letter, plain⟩⟩
    · rintro ⟨length, plain⟩
      obtain ⟨c, rest, rfl⟩ := List.exists_cons_of_length_eq_add_one length
      rw [List.forall_mem_cons] at plain
      exact ⟨c, plain.1, rest, ⟨by simpa using length, plain.2⟩, rfl⟩

theorem wordsOfLength_nodup (n : Nat) : (wordsOfLength n).Nodup := by
  induction n with
  | zero => exact List.nodup_singleton _
  | succ n ih =>
    refine List.nodup_flatMap.mpr ⟨fun c _ => ih.map fun _ _ same => (List.cons.inj same).2, ?_⟩
    have distinct : letters.Nodup := by decide
    refine distinct.imp fun {a b} other => ?_
    simp only [Function.onFun, List.disjoint_left, List.mem_map]
    rintro _ ⟨v, -, rfl⟩ ⟨w, -, same⟩
    exact other (List.cons.inj same).1.symm

theorem length_wordsOfLength (n : Nat) : (wordsOfLength n).length = 26 ^ n := by
  have alphabet : letters.length = 26 := by decide
  induction n with
  | zero => rfl
  | succ n ih =>
    simp only [wordsOfLength, List.length_flatMap, List.length_map, ih, List.map_const',
      List.sum_replicate_nat, alphabet]
    rw [Nat.pow_succ, Nat.mul_comm]

/-! The names of up to a length -/

/-- The words from which names are taken. -/
def candidates (length : Nat) : List String :=
  (List.range' 1 length).flatMap fun n => (wordsOfLength n).map String.ofList

theorem namesUpTo_eq (length : Nat) :
    namesUpTo length = (candidates length).filter (!reserved.contains ·) := rfl

theorem candidates_succ (length : Nat) :
    candidates (length + 1) = candidates length ++ (wordsOfLength (length + 1)).map
    String.ofList := by
  rw [candidates, List.range'_1_concat, List.flatMap_append, List.flatMap_singleton,
    Nat.add_comm 1 length]
  rfl

theorem mem_candidates {length : Nat} {p : String} :
    p ∈ candidates length ↔ (1 ≤ p.toList.length ∧ p.toList.length ≤ length) ∧
    ∀ c ∈ p.toList, c ∈ letters := by
  simp only [candidates, List.mem_flatMap, List.mem_range'_1, List.mem_map, mem_wordsOfLength]
  constructor
  · rintro ⟨n, bounds, w, ⟨rfl, plain⟩, rfl⟩
    rw [String.toList_ofList]
    exact ⟨by omega, plain⟩
  · rintro ⟨bounds, plain⟩
    exact ⟨p.toList.length, by omega, p.toList, ⟨rfl, plain⟩, String.ofList_toList⟩

theorem candidates_nodup (length : Nat) : (candidates length).Nodup := by
  induction length with
  | zero => exact .nil
  | succ k ih =>
    have injective : Function.Injective String.ofList := fun _ _ same => String.ofList_inj.mp same
    rw [candidates_succ]
    refine ih.append ((wordsOfLength_nodup _).map injective) ?_
    rw [List.disjoint_left]
    intro p shorter among
    obtain ⟨w, word, rfl⟩ := List.mem_map.mp among
    have bounds := (mem_candidates.mp shorter).1
    have length := (mem_wordsOfLength.mp word).1
    rw [String.toList_ofList] at bounds
    omega

theorem length_candidates_succ (length : Nat) :
    (candidates (length + 1)).length = (candidates length).length + 26 ^ (length + 1) := by
  rw [candidates_succ, List.length_append, List.length_map, length_wordsOfLength]

/-- The reserved words of up to a length are all that can be missing. -/
theorem length_candidates_le (length : Nat) :
    (candidates length).length ≤
      (namesUpTo length).length + (reserved.filter (·.toList.length ≤ length)).length := by
  have parted := List.length_eq_length_filter_add (l := candidates length) (reserved.contains ·)
  have missing : ((candidates length).filter (reserved.contains ·)).length ≤
      (reserved.filter (·.toList.length ≤ length)).length := by
    refine (((candidates_nodup length).filter _).subperm fun p member => ?_).length_le
    rw [List.mem_filter] at member ⊢
    exact ⟨by simpa using member.2, decide_eq_true (mem_candidates.mp member.1).1.2⟩
  rw [namesUpTo_eq]
  omega

theorem nameLength_spec (count : Nat) :
    count ≤ 26 ^ nameLength count ∧ ∀ k < nameLength count, 26 ^ k < count := by
  have alphabet : letters.length = 26 := by decide
  have enough : count ≤ Nat.pow letters.length count := by
    rw [alphabet]
    exact Nat.le_of_lt (Nat.lt_pow_self (by decide))
  unfold nameLength
  cases found : (List.range (count + 1)).find? fun k => count ≤ Nat.pow letters.length k with
  | none =>
    rw [List.find?_eq_none] at found
    exact absurd (decide_eq_true enough) (found count (by simp))
  | some k =>
    obtain ⟨accepted, -, least⟩ := List.find?_range_eq_some.mp found
    rw [alphabet] at accepted least
    refine ⟨of_decide_eq_true accepted, fun j less => ?_⟩
    simpa using least j less

/-- From two letters on, shorter words make up for those that are reserved. -/
theorem pow_le_length_namesUpTo (k : Nat) : 26 ^ (k + 2) ≤ (namesUpTo (k + 2)).length := by
  have listed := length_candidates_le (k + 2)
  have total : 26 ^ (k + 2) + 26 ^ (k + 1) ≤ (candidates (k + 2)).length := by
    rw [length_candidates_succ, length_candidates_succ, Nat.add_comm]
    exact Nat.add_le_add_right (Nat.le_add_left _ _) _
  have reserved : (reserved.filter (·.toList.length ≤ k + 2)).length ≤ 26 ^ (k + 1) := by
    cases k with
    | zero => decide +kernel
    | succ k =>
      have few : (ManyParameters.reserved.filter (·.toList.length ≤ k + 3)).length ≤ 26 ^ 2 :=
        Nat.le_trans (List.length_filter_le _ _) (by decide)
      exact Nat.le_trans few (Nat.pow_le_pow_right (Nat.succ_pos 25) (Nat.le_add_left 2 k))
  omega

/-- Only for a count of 1, where there are no letters, and of 26, where one of the letters is
reserved, there are fewer names than asked for. -/
theorem length_names {count : Nat} (positive : 1 ≤ count) :
    (names count).length = if count = 1 then 0 else if count = 26 then 25 else count := by
  obtain ⟨enough, least⟩ := nameLength_spec count
  rw [names, List.length_take]
  generalize nameLength count = k at enough least
  match k with
  | 0 =>
    have single : count = 1 := by omega
    have none : (namesUpTo 0).length = 0 := rfl
    rw [if_pos single, none, Nat.min_zero]
  | 1 =>
    have several := least 0 (by decide)
    have letters : (namesUpTo 1).length = 25 := by decide +kernel
    rw [letters, if_neg (by omega)]
    split <;> omega
  | k + 2 =>
    have many := least 1 (by omega)
    have all : count ≤ (namesUpTo (k + 2)).length := Nat.le_trans enough (pow_le_length_namesUpTo k)
    rw [if_neg (by omega), if_neg (by omega), Nat.min_eq_left all]

theorem names_nodup (count : Nat) : (names count).Nodup :=
  ((candidates_nodup _).filter _).sublist (List.take_sublist _ _)

theorem mem_names {count : Nat} {p : String} (member : p ∈ names count) :
    (p ≠ "" ∧ ∀ c ∈ p.toList, c ∈ letters) ∧ p ∉ reserved := by
  obtain ⟨candidate, free⟩ := List.mem_filter.mp (List.mem_of_mem_take member)
  obtain ⟨bounds, plain⟩ := mem_candidates.mp candidate
  refine ⟨⟨?_, plain⟩, by simpa using free⟩
  rintro rfl
  exact absurd bounds.1 (by decide)

/-! The value of the expression -/

/-- A sum of some nesting, or none, stays below the power that its nesting gives. -/
def Bounded : Option Nat → Int → Prop
  | none, sum => sum = 0
  | some n, sum => sum.natAbs ≤ 16 ^ (n + 1)

theorem natAbs_add_le {sum product : Int} {depth : Option Nat} {n : Nat}
    (bounded : Bounded depth sum) (factor : product.natAbs ≤ 16 ^ (n + 1)) :
    (sum + product).natAbs ≤ 16 ^ (nestingWith depth n + 1) := by
  cases depth with
  | none =>
    rw [show sum = 0 from bounded, Int.zero_add]
    exact factor
  | some m =>
    have bounded : sum.natAbs ≤ 16 ^ (m + 1) := bounded
    have left : 16 ^ (m + 1) ≤ 16 ^ (max m n + 1) := Nat.pow_le_pow_right (by decide) (by omega)
    have right : 16 ^ (n + 1) ≤ 16 ^ (max m n + 1) := Nat.pow_le_pow_right (by decide) (by omega)
    have triangle := Int.natAbs_add_le sum product
    rw [nestingWith, Nat.pow_succ 16 (max m n + 1)]
    omega

theorem natAbs_evaluateFrom_le {terms : List (Operator × Int)}
    (small : ∀ t ∈ terms, t.2.natAbs ≤ 15) {sum product : Int} {depth : Option Nat} {n : Nat}
    (bounded : Bounded depth sum) (factor : product.natAbs ≤ 16 ^ (n + 1)) :
    (evaluateFrom sum product terms).natAbs ≤
      16 ^ (nestingFrom depth n (terms.map Prod.fst) + 1) := by
  induction terms generalizing sum product depth n with
  | nil => exact natAbs_add_le bounded factor
  | cons term rest ih =>
    obtain ⟨operator, v⟩ := term
    have value : v.natAbs ≤ 15 := small _ List.mem_cons_self
    have later := fun t member => small t (List.mem_cons_of_mem _ member)
    have added : Bounded (some (nestingWith depth n)) (sum + product) :=
      natAbs_add_le bounded factor
    cases operator with
    | mul =>
      refine ih later bounded ?_
      rw [Int.natAbs_mul, Nat.pow_succ]
      exact Nat.mul_le_mul factor (by omega)
    | add => exact ih later added (by omega)
    | sub => exact ih later added (by omega)

/-- What is not nested too deep does not become too long for its text. -/
theorem hasText_of_nesting {n : Int} {depth : Nat} (bound : n.natAbs ≤ 16 ^ (depth + 1))
    (nested : depth < 3440) : Integer.hasText n = true := by
  have below {k limit : Nat} (some : k ≠ 0) (enough : depth + 1 ≤ 4 * k) (fits : 5 * k ≤ limit) :
      16 ^ (depth + 1) < Nat.pow 10 limit :=
    calc 16 ^ (depth + 1) ≤ 16 ^ (4 * k) := Nat.pow_le_pow_right (by decide) enough
      _ = (16 ^ 4) ^ k := Nat.pow_mul 16 4 k
      _ < (10 ^ 5) ^ k := Nat.pow_lt_pow_left (by decide) some
      _ = 10 ^ (5 * k) := (Nat.pow_mul 10 5 k).symm
      _ ≤ Nat.pow 10 limit := Nat.pow_le_pow_right (by decide) fits
  have enough : depth + 1 ≤ 4 * 860 := by omega
  exact decide_eq_true (Nat.lt_of_le_of_lt bound (below (by decide) enough (by decide)))

theorem hasText_evaluate {operands : List Int} {operators : List Operator}
    (small : ∀ v ∈ operands, v.natAbs ≤ 15) (count : operands.length = operators.length)
    (nested : nestingFrom none 0 operators.dropLast < 3440) :
    Integer.hasText (evaluate operands operators) = true := by
  cases operands with
  | nil =>
    have zero : (0 : Int).natAbs ≤ 16 ^ (0 + 1) := by decide
    exact hasText_of_nesting zero (by decide)
  | cons v rest =>
    obtain ⟨first, small⟩ := List.forall_mem_cons.mp small
    have terms : (operators.zip rest).map Prod.fst = operators.dropLast := by
      rcases List.eq_nil_or_concat operators with rfl | ⟨front, last, rfl⟩
      · cases count
      · have same : front.length = rest.length := by simpa using count.symm
        have zipped : (front ++ [last]).zip (rest ++ []) = front.zip rest ++ [last].zip [] :=
          List.zip_append same
        rw [List.append_nil, List.zip_nil_right, List.append_nil] at zipped
        rw [List.concat_eq_append, zipped, List.map_fst_zip (Nat.le_of_eq same),
          List.dropLast_concat]
    have none : Bounded none 0 := rfl
    have factor : v.natAbs ≤ 16 ^ (0 + 1) := by omega
    have later : ∀ t ∈ operators.zip rest, t.2.natAbs ≤ 15 :=
      fun t member => small t.2 (List.of_mem_zip member).2
    have bound := natAbs_evaluateFrom_le later none factor
    rw [terms] at bound
    exact hasText_of_nesting bound nested

/-! Samples that are drawn -/

theorem Draw.below_lt {bound : Nat} (positive : 0 < bound) (d : Draw) : d.below bound < bound := by
  rw [Draw.below, Nat.div_lt_iff_lt_mul (by decide), Nat.mul_comm]
  exact Nat.mul_lt_mul_of_pos_left d.isLt positive

/-- What holds of a sample that was drawn. -/
structure Sample.Sound (s : Sample) : Prop where
  words : ∀ p ∈ s.parameters, p ≠ "" ∧ ∀ c ∈ p.toList, c ∈ letters
  typed : ∀ t ∈ s.types, t = "integer" ∨ t = "double"
  types_length : s.types.length = s.parameters.length
  operators_length : s.operators.length = s.parameters.length
  parameters_le : s.parameters.length ≤ s.values.length
  small : ∀ v ∈ s.values, v ≤ 15

theorem length_values {count : Nat} {draws : List Draw} (enough : 3 * count ≤ draws.length) :
    (Sample.ofDraws count draws).values.length = count := by
  have few : (names count).length ≤ count := List.length_take_le _ _
  simp only [Sample.ofDraws, List.length_map, List.length_take, List.length_drop]
  omega

theorem sound_ofDraws {count : Nat} {draws : List Draw} (enough : 3 * count ≤ draws.length) :
    (Sample.ofDraws count draws).Sound := by
  have few : (names count).length ≤ count := List.length_take_le _ _
  refine ⟨fun p member => (mem_names member).1, ?_, ?_, ?_, ?_, ?_⟩
  · intro t member
    obtain ⟨d, -, rfl⟩ := List.mem_map.mp member
    rw [typeOfDraw]
    split
    · exact .inl rfl
    · exact .inr rfl
  · simp only [Sample.ofDraws, List.length_map, List.length_take, List.length_drop]
    omega
  · simp only [Sample.ofDraws, List.length_map, List.length_take]
    omega
  · rw [length_values enough]
    exact few
  · intro v member
    obtain ⟨d, -, rfl⟩ := List.mem_map.mp member
    exact Nat.le_of_lt_succ (Draw.below_lt (by decide) d)

/-- What a drawn sample tests has a value that can be written, but for too deep a nesting. -/
theorem Sample.Sound.hasText {s : Sample} (sound : s.Sound) (nested : s.nesting < 3440) :
    Integer.hasText s.result = true := by
  refine hasText_evaluate ?_ ?_ nested
  · intro v member
    obtain ⟨n, among, rfl⟩ := List.mem_map.mp member
    exact sound.small n (List.mem_of_mem_take among)
  · rw [List.length_map, List.length_take, sound.operators_length]
    exact Nat.min_eq_left sound.parameters_le

/-! The text of a program -/

open Text (runs fields isBlank)

variable {items : List String}

/-- The characters that end an entry, a list or a line. -/
def marks : List Char := [',', ')', '\n']

theorem unmarked_of_all {s : List Char} (all : s.all (!marks.contains ·) = true) :
    ∀ c ∈ s, c ∉ marks := by
  intro c member
  simpa using List.all_eq_true.mp all c member

theorem letter_plain {c : Char} (letter : c ∈ letters) : isBlank c = false ∧ c ∉ marks := by
  have dense : letters.all (!isBlank ·) = true := by decide
  refine ⟨?_, unmarked_of_all (by decide) c letter⟩
  simpa using List.all_eq_true.mp dense c letter

theorem digit_plain {n : Nat} {c : Char} (member : c ∈ (Nat.repr n).toList) :
    isBlank c = false ∧ c ∉ marks := by
  rw [Nat.toList_repr] at member
  refine ⟨(Text.digit_of_mem_toDigits member).2, ?_⟩
  have digit := Nat.isDigit_of_mem_toDigits (by decide) (by decide) member
  have other : marks.all (!·.isDigit) = true := by decide
  intro mark
  simpa [digit] using List.all_eq_true.mp other c mark

theorem integer_plain {n : Int} {c : Char} (member : c ∈ (Integer.text n).toList) : c ∉ marks := by
  cases n with
  | ofNat n => exact (digit_plain (n := n) member).2
  | negSucc n =>
    have signed : (Integer.text (.negSucc n)).toList = '-' :: (Nat.repr (n + 1)).toList := by
      change ("-" ++ Nat.repr (n + 1)).toList = _
      rw [String.toList_append]
      rfl
    rw [signed, List.mem_cons] at member
    rcases member with rfl | member
    · decide
    · exact (digit_plain member).2

theorem mem_intercalate {between : String} {c : Char}
    (member : c ∈ (between.intercalate items).toList) :
    c ∈ between.toList ∨ ∃ item ∈ items, c ∈ item.toList := by
  induction items with
  | nil => simp at member
  | cons a rest ih =>
    cases rest with
    | nil => exact .inr ⟨a, List.mem_cons_self, by simpa using member⟩
    | cons b rest =>
      rw [String.intercalate_cons_cons, String.toList_append, String.toList_append, List.mem_append,
        List.mem_append] at member
      rcases member with (inside | inside) | later
      · exact .inr ⟨a, List.mem_cons_self, inside⟩
      · exact .inl inside
      · rcases ih later with inside | ⟨item, among, inside⟩
        · exact .inl inside
        · exact .inr ⟨item, List.mem_cons_of_mem _ among, inside⟩

theorem not_mem_listed {c : Char} (other : c ∉ [',', ' '])
    (none : ∀ item ∈ items, c ∉ item.toList) :
    c ∉ (Sample.listed items).toList := by
  intro member
  rcases mem_intercalate member with between | ⟨item, among, inside⟩
  · exact other between
  · exact none item among inside

/-- What stands before the first separator is the first part. -/
theorem splitOn_cons_of_not_mem {c : Char} {first : List Char} (none : c ∉ first)
    (rest : List Char) :
    (first ++ c :: rest).splitOn c = first :: rest.splitOn c := by
  rw [List.splitOn, List.splitOnP_append_cons _ _ (by simp), ← List.splitOn, ← List.splitOn,
    Text.splitOn_of_not_mem none]
  rfl

/-- Lines that hold no line end are the lines of their text. -/
theorem splitOn_join_lines {lines : List String} (unbroken : ∀ line ∈ lines, '\n' ∉ line.toList) :
    (String.join (lines.map (· ++ "\n"))).toList.splitOn '\n' =
      lines.map String.toList ++ [[]] := by
  induction lines with
  | nil => rfl
  | cons line rest ih =>
    obtain ⟨first, unbroken⟩ := List.forall_mem_cons.mp unbroken
    have text : (String.join ((line :: rest).map (· ++ "\n"))).toList =
        line.toList ++ '\n' :: (String.join (rest.map (· ++ "\n"))).toList := by
      rw [List.map_cons, String.join_cons, String.toList_append, String.toList_append,
        List.append_assoc]
      rfl
    rw [text, splitOn_cons_of_not_mem first, ih unbroken]
    rfl

/-! What a program says -/

def firstWord? (s : List Char) : Option String := (fields s).head?.map String.ofList

/-- The list in parentheses on the first line that opens with a text: the first word of each entry,
but for the first entry. -/
def listBehind (opening program : String) : List String :=
  let line := ((program.toList.splitOn '\n').find? (opening.toList.isPrefixOf ·)).getD []
  (((line.drop opening.toList.length).takeWhile (· != ')')).splitOn ',').tail.filterMap firstWord?

/-- The parameters that the function declares besides `n`. -/
def declared (program : String) : List String := listBehind "function testing(" program

/-- The arguments that the function hands on to itself besides `n`. -/
def handedOn (program : String) : List String := listBehind "        res = testing(" program

/-- The values that are passed to the function besides the first. -/
def passed (program : String) : List String := listBehind "    res = testing(" program

theorem firstWord?_blank (s : List Char) : firstWord? (' ' :: s) = firstWord? s := by
  have skipped : fields (' ' :: s) = fields s := Text.runs_cons_of_pos (by decide) s
  rw [firstWord?, firstWord?, skipped]

/-- A text without blanks is its own first word, also before a blank. -/
theorem firstWord?_word {w : String} (some : w ≠ "") (dense : ∀ c ∈ w.toList, isBlank c = false) :
    firstWord? w.toList = w ∧ ∀ s, firstWord? (w.toList ++ ' ' :: s) = w := by
  have single : runs isBlank w.toList = [w.toList] := Text.runs_of_none dense (by simpa using some)
  constructor
  · rw [firstWord?, fields, ← runs, single]
    simp
  · intro s
    rw [firstWord?, fields, ← runs, Text.runs_append_cons (by decide), single]
    simp

/-- The entries of a list, each with the blank before it. -/
theorem splitOn_listed (plain : ∀ item ∈ items, ∀ c ∈ item.toList, c ∉ marks) :
    (' ' :: (Sample.listed items).toList).splitOn ',' =
      if items = [] then [[' ']] else items.map (' ' :: ·.toList) := by
  split
  · rename_i none
    subst none
    rfl
  · rename_i some
    have joined : ' ' :: (Sample.listed items).toList =
        [','].intercalate (items.map (' ' :: ·.toList)) := by
      induction items with
      | nil => exact absurd rfl some
      | cons a rest ih =>
        cases rest with
        | nil => simp [Sample.listed]
        | cons b rest =>
          have later := ih (fun item member => plain item (List.mem_cons_of_mem _ member))
            (List.cons_ne_nil _ _)
          rw [List.map_cons] at later
          rw [List.map_cons, List.map_cons, List.intercalate_cons_cons, ← later]
          simp [Sample.listed, String.toList_append]
    rw [joined]
    refine List.splitOn_intercalate ',' ?_ (by simpa using some)
    intro entry member
    obtain ⟨item, inside, rfl⟩ := List.mem_map.mp member
    simpa using fun comma => plain item inside ',' comma (by decide)

/-- The list on a line is read as the first words of what is listed. -/
theorem listBehind_eq {opening program : String} {first after : List Char}
    (found : (program.toList.splitOn '\n').find? (opening.toList.isPrefixOf ·) =
      some (opening.toList ++
          (first ++ ',' :: ' ' :: ((Sample.listed items).toList ++ ')' :: after))))
    (simple : ∀ c ∈ first, c ∉ marks) (plain : ∀ item ∈ items, ∀ c ∈ item.toList, c ∉ marks) :
    listBehind opening program = items.filterMap (firstWord? ·.toList) := by
  have unended : ')' ∉ (Sample.listed items).toList :=
    not_mem_listed (by decide) fun item member inside => plain item member ')' inside (by decide)
  have inside : (first ++ ',' :: ' ' :: ((Sample.listed items).toList ++ ')' :: after)).takeWhile
      (· != ')') =
      first ++ ',' :: ' ' :: (Sample.listed items).toList := by
    have clear : ∀ c ∈ first ++ ',' :: ' ' :: (Sample.listed items).toList, (c != ')') = true := by
      intro c member
      rw [bne_iff_ne]
      rintro rfl
      simp only [List.mem_append, List.mem_cons, Char.reduceEq, false_or] at member
      exact member.elim (fun inside => simple ')' inside (by decide)) unended
    calc
      _ = ((first ++ ',' :: ' ' :: (Sample.listed items).toList) ++ ')' :: after).takeWhile
          (· != ')') := by simp
      _ = _ := by
        rw [List.takeWhile_append_of_pos clear, List.takeWhile_cons_of_neg (by decide),
          List.append_nil]
  have separate : ',' ∉ first := fun inside => simple ',' inside (by decide)
  rw [listBehind, found, Option.getD_some, List.drop_left, inside, splitOn_cons_of_not_mem separate,
    List.tail_cons, splitOn_listed plain]
  split
  · rename_i none
    subst none
    rfl
  · rw [List.filterMap_map]
    exact List.filterMap_congr fun item _ => firstWord?_blank item.toList

/-- Words that are listed are read back. -/
theorem listBehind_words {opening program : String} {first after : List Char}
    (found : (program.toList.splitOn '\n').find? (opening.toList.isPrefixOf ·) =
      some (opening.toList ++
          (first ++ ',' :: ' ' :: ((Sample.listed items).toList ++ ')' :: after))))
    (simple : ∀ c ∈ first, c ∉ marks)
    (plain : ∀ item ∈ items, item ≠ "" ∧ ∀ c ∈ item.toList, isBlank c = false ∧ c ∉ marks) :
    listBehind opening program = items := by
  have words : ∀ item ∈ items, firstWord? item.toList = some item := fun item member =>
    (firstWord?_word (plain item member).1 fun c inside => ((plain item member).2 c inside).1).1
  rw [listBehind_eq found simple fun item member c inside => ((plain item member).2 c inside).2,
    List.filterMap_congr words, List.filterMap_some]

namespace Sample.Sound

variable {s : Sample} (sound : s.Sound)
include sound

theorem parameter_plain {p : String} (member : p ∈ s.parameters) :
    p ≠ "" ∧ ∀ c ∈ p.toList, isBlank c = false ∧ c ∉ marks :=
  ⟨(sound.words p member).1, fun c inside => letter_plain ((sound.words p member).2 c inside)⟩

/-- A parameter is the first word of its declaration. -/
theorem filterMap_declarations :
    ((s.parameters.zip s.types).map fun (p, t) => p ++ " AS " ++ t).filterMap
    (firstWord? ·.toList) =
      s.parameters := by
  have first : ∀ d ∈ s.parameters.zip s.types, firstWord? (d.1 ++ " AS " ++ d.2).toList =
      some d.1 := by
    intro d member
    obtain ⟨parameter, -⟩ := List.of_mem_zip member
    obtain ⟨filled, plain⟩ := sound.parameter_plain parameter
    rw [String.toList_append, String.toList_append, List.append_assoc]
    exact (firstWord?_word filled fun c inside => (plain c inside).1).2 _
  calc _ = (s.parameters.zip s.types).filterMap (some ·.1) := by
        rw [List.filterMap_map]
        exact List.filterMap_congr first
    _ = s.parameters := by
        rw [List.filterMap_eq_map', List.map_fst_zip (Nat.le_of_eq sound.types_length.symm)]

theorem declaration_plain :
    ∀ item ∈ (s.parameters.zip s.types).map fun (p, t) => p ++ " AS " ++ t,
    ∀ c ∈ item.toList, c ∉ marks := by
  have fixed : ∀ word ∈ [" AS ", "integer", "double"], word.toList.all (!marks.contains ·) =
      true := by decide
  intro item member c inside
  obtain ⟨⟨p, t⟩, among, rfl⟩ := List.mem_map.mp member
  obtain ⟨parameter, type⟩ := List.of_mem_zip among
  rw [String.toList_append, String.toList_append, List.mem_append, List.mem_append] at inside
  rcases inside with (inside | inside) | inside
  · exact ((sound.parameter_plain parameter).2 c inside).2
  · exact unmarked_of_all (fixed " AS " (by simp)) c inside
  · exact unmarked_of_all (fixed t (by rcases sound.typed t type with rfl | rfl <;> simp)) c inside

theorem expression_plain {c : Char} (member : c ∈ s.expression.toList) : c ∉ marks := by
  have blank : ∀ c ∈ " ".toList, c ∉ marks := unmarked_of_all (by decide)
  rw [expression, String.toList_ofList] at member
  rcases mem_intercalate (List.dropLast_subset _ member) with between | ⟨item, among, inside⟩
  · exact blank c between
  · obtain ⟨⟨p, o⟩, zipped, rfl⟩ := List.mem_map.mp among
    rw [String.toList_append, String.toList_append, List.mem_append, List.mem_append] at inside
    rcases inside with (inside | inside) | inside
    · exact ((sound.parameter_plain (List.of_mem_zip zipped).1).2 c inside).2
    · exact blank c inside
    · rw [String.toList_singleton, List.mem_singleton] at inside
      subst inside
      cases o <;> decide

/-- No part of a line holds a line end. -/
theorem unbroken : ∀ line ∈ s.lines, '\n' ∉ line.toList := by
  have mark : '\n' ∈ marks := by decide
  have joined {a b : String} (first : '\n' ∉ a.toList) (second : '\n' ∉ b.toList) : '\n' ∉ (a ++
      b).toList := by
    simp [String.toList_append, first, second]
  have header : '\n' ∉ (listed ((s.parameters.zip s.types).map fun (p, t) =>
      p ++ " AS " ++ t)).toList :=
    not_mem_listed (by decide) fun item member inside =>
      sound.declaration_plain item member _ inside mark
  have arguments : '\n' ∉ (listed s.parameters).toList :=
    not_mem_listed (by decide) fun p member inside =>
      ((sound.parameter_plain member).2 _ inside).2 mark
  have values : '\n' ∉ (listed (s.values.map toString)).toList := by
    refine not_mem_listed (by decide) fun item member inside => ?_
    obtain ⟨v, -, rfl⟩ := List.mem_map.mp member
    exact (digit_plain inside).2 mark
  have expression : '\n' ∉ s.expression.toList := fun inside => sound.expression_plain inside mark
  have result : '\n' ∉ (Integer.text s.result).toList := fun inside => integer_plain inside mark
  unfold Sample.lines
  simp only [List.forall_mem_cons]
  refine ⟨by decide, by decide, joined (joined (by decide) header) (by decide), by decide,
    by decide, by decide, joined (joined (by decide) arguments) (by decide), by decide, by decide,
    joined (by decide) expression, by decide, by decide, by decide, by decide, by decide,
    joined (joined (by decide) values) (by decide), joined (joined (by decide) result) (by decide),
    by decide, by decide, by decide, by decide, by decide, by decide, ?_⟩
  simp

theorem splitOn_program : s.program.toList.splitOn '\n' = s.lines.map String.toList ++ [[]] :=
  splitOn_join_lines sound.unbroken

theorem declared_program : declared s.program = s.parameters := by
  have found : (s.program.toList.splitOn '\n').find? ("function testing(".toList.isPrefixOf ·) =
      some ("function testing(".toList ++ ("n as integer".toList ++ ',' :: ' ' ::
        ((listed ((s.parameters.zip s.types).map fun (p, t) => p ++ " AS " ++ t)).toList ++
          ')' :: " as integer".toList))) := by
    rw [sound.splitOn_program]
    unfold lines
    simp only [List.map_cons, List.map_nil, String.toList_append]
    rfl
  rw [declared, listBehind_eq found (unmarked_of_all (by decide)) sound.declaration_plain,
    sound.filterMap_declarations]

theorem handedOn_program : handedOn s.program = s.parameters := by
  have found : (s.program.toList.splitOn '\n').find?
      ("        res = testing(".toList.isPrefixOf ·) =
      some ("        res = testing(".toList ++ ("n".toList ++ ',' :: ' ' ::
        ((listed s.parameters).toList ++ ')' :: []))) := by
    rw [sound.splitOn_program]
    unfold lines
    simp only [List.map_cons, List.map_nil, String.toList_append]
    rfl
  exact listBehind_words found (unmarked_of_all (by decide)) fun p member =>
    sound.parameter_plain member

theorem passed_program : passed s.program = s.values.map toString := by
  have found : (s.program.toList.splitOn '\n').find? ("    res = testing(".toList.isPrefixOf ·) =
      some ("    res = testing(".toList ++ ("10".toList ++ ',' :: ' ' ::
        ((listed (s.values.map toString)).toList ++ ')' :: []))) := by
    rw [sound.splitOn_program]
    unfold lines
    simp only [List.map_cons, List.map_nil, String.toList_append]
    rfl
  refine listBehind_words found (unmarked_of_all (by decide)) fun item member => ?_
  obtain ⟨v, -, rfl⟩ := List.mem_map.mp member
  exact ⟨Nat.repr_ne_empty, fun c => digit_plain⟩

end Sample.Sound

/-! Which programs are generated -/

/-- The words that the language of the programs reserves. -/
def languageWords : List String := [
  "as", "asc", "declare", "dim", "do", "else", "end", "chr", "function", "if", "input", "length",
  "loop", "print", "return", "scope", "substr", "then", "while", "and", "continue", "elseif",
  "exit", "false", "for", "next", "not", "or", "shared", "static", "true", "integer", "double",
  "boolean", "string"]

/-- The words that cannot stand for a value where the expression is evaluated. -/
def evaluatorWords : List String := [
  "False", "None", "True", "and", "as", "assert", "async", "await", "break", "class", "continue",
  "def", "del", "elif", "else", "except", "finally", "for", "from", "global", "if", "import", "in",
  "is", "lambda", "nonlocal", "not", "or", "pass", "raise", "return", "try", "while", "with",
  "yield"]

theorem not_word_of_mem_names {n : Nat} {p : String} (member : p ∈ names n) :
    p ∉ languageWords ∧ p ∉ evaluatorWords ∧ p ≠ "n" := by
  obtain ⟨⟨-, plain⟩, free⟩ := mem_names member
  have language : ∀ word ∈ languageWords, word ∈ reserved := by decide +kernel
  have evaluator : ∀ word ∈ evaluatorWords, word ∈ reserved ∨
      word.toList.all (letters.contains ·) = false := by
    decide +kernel
  refine ⟨fun among => free (language p among), fun among => ?_, ?_⟩
  · have lower : p.toList.all (letters.contains ·) = true := by simpa using plain
    exact (evaluator p among).elim free fun capital => by rw [lower] at capital; cases capital
  · rintro rfl
    exact free (by decide)

theorem sample_eq (limit : Nat) {arguments : List String} (draws : Nat → List Draw) {n : Nat}
    (positive : 1 ≤ n) (read : count arguments = .ok n) :
    sample limit arguments draws =
      let s := Sample.ofDraws n (draws (3 * n))
      s.expected limit >>= fun value =>
        if Integer.hasText value then .ok s else .error .resultLength := by
  have whole : ¬(n : Int) ≤ 0 := by omega
  simp only [sample, read, bind, Except.bind]
  rw [if_neg whole, Int.toNat_natCast]
  rfl

/-- For every count and all draws the names are distinct and free to be used, and the program
declares and hands on just these, and passes as many values as were asked for. There are as many
names as values, but for the counts of 1 and 26. Whatever the limit of the evaluator is, the
expression has a value, unless there are no names to form it of, or more operations lie in each
other than the limit allows. The program is written if that value has a text, as it has up to a
nesting of
3439. -/
theorem parameters_match_values (limit : Nat) (arguments : List String) (draws : Nat → List Draw)
    {n : Nat} (positive : 1 ≤ n) (read : count arguments = .ok n)
    (enough : 3 * n ≤ (draws (3 * n)).length) :
    let s := Sample.ofDraws n (draws (3 * n))
    (s.parameters.Nodup ∧ ∀ p ∈ s.parameters, (p ≠ "" ∧ ∀ c ∈ p.toList, c ∈ letters) ∧
      p ∉ languageWords ∧ p ∉ evaluatorWords ∧ p ≠ "n") ∧
    (s.parameters.length = (if n = 1 then 0 else if n = 26 then 25 else n) ∧ s.values.length = n) ∧
    (declared s.program = s.parameters ∧ handedOn s.program = s.parameters ∧
      passed s.program = s.values.map toString) ∧
    ((declared s.program).length = (passed s.program).length ↔ n ≠ 1 ∧ n ≠ 26) ∧
    s.expected limit = (if n = 1 then .error .noParameters
      else if limit < s.nesting then .error .nesting else .ok s.result) ∧
    (sample limit arguments draws = .ok s ↔
      n ≠ 1 ∧ s.nesting ≤ limit ∧ Integer.hasText s.result = true) ∧
    (s.nesting < 3440 → Integer.hasText s.result = true) := by
  intro s
  have sound : s.Sound := sound_ofDraws enough
  have parameters : s.parameters.length = if n = 1 then 0 else if n = 26 then 25 else n :=
    length_names positive
  have values : s.values.length = n := length_values enough
  have nameless : s.parameters.isEmpty = true ↔ n = 1 := by
    rw [List.isEmpty_iff_length_eq_zero, parameters]
    split
    · omega
    · split <;> omega
  have expected : s.expected limit = if n = 1 then .error .noParameters
      else if limit < s.nesting then .error .nesting else .ok s.result :=
    if_congr nameless rfl rfl
  refine ⟨⟨names_nodup n, fun p member => ⟨(mem_names member).1, not_word_of_mem_names member⟩⟩,
    ⟨parameters, values⟩, ⟨sound.declared_program, sound.handedOn_program, sound.passed_program⟩,
    ?_, expected, ?_, sound.hasText⟩
  · rw [sound.declared_program, sound.passed_program, List.length_map, parameters, values]
    split
    · omega
    · split <;> omega
  · rw [sample_eq limit draws positive read]
    dsimp only
    rw [expected]
    by_cases single : n = 1
    · simp [single, bind, Except.bind]
    · by_cases deep : limit < s.nesting
      · simp [single, deep, Nat.not_le_of_lt deep, bind, Except.bind]
      · cases written : Integer.hasText s.result <;>
          simp [single, deep, Nat.le_of_not_lt deep, written, bind, Except.bind, s]

/-- With 27 parameters the names go on with two letters. -/
theorem twentySeven_parameters :
    (1 ≤ 27 ∧ count ["27"] = .ok 27 ∧ 3 * 27 ≤ (Draw.sequence (3 * 27) 1).length) ∧
    declared (Sample.ofDraws 27 (Draw.sequence (3 * 27) 1)).program =
      "abcdefghijklmopqrstuvwxyz".toList.map String.singleton ++ ["aa", "ab"] ∧
    (passed (Sample.ofDraws 27 (Draw.sequence (3 * 27) 1)).program).length = 27 := by
  have read : count ["27"] = .ok ((27 : Nat) : Int) := by decide +kernel
  have enough : 3 * 27 ≤ (Draw.sequence (3 * 27) 1).length := by decide +kernel
  obtain ⟨-, ⟨-, values⟩, ⟨declared, -, passed⟩, -⟩ :=
    parameters_match_values 2993 ["27"] (Draw.sequence · 1) (by decide) read enough
  refine ⟨⟨by decide, read, enough⟩, ?_, ?_⟩
  · rw [declared]
    decide +kernel
  · rw [passed, List.length_map, values]

/-- With 26 parameters, one letter too few is left and a value is passed that no parameter takes. A
single parameter has no name. -/
theorem twentySix_parameters :
    sample 2993 ["26"] (Draw.sequence · 1) =
      .ok (Sample.ofDraws 26 (Draw.sequence (3 * 26) 1)) ∧
    (declared (Sample.ofDraws 26 (Draw.sequence (3 * 26) 1)).program).length = 25 ∧
    (passed (Sample.ofDraws 26 (Draw.sequence (3 * 26) 1)).program).length = 26 ∧
    sample 2993 ["1"] (Draw.sequence · 1) = .error .noParameters := by
  have enough : 3 * 26 ≤ (Draw.sequence (3 * 26) 1).length := by decide +kernel
  have sound := sound_ofDraws enough
  refine ⟨?_, ?_, ?_, ?_⟩
  · rw [sample_eq (n := 26) 2993 (Draw.sequence · 1) (by decide) (by decide +kernel)]
    decide +kernel
  · rw [sound.declared_program]
    exact length_names (by decide)
  · rw [sound.passed_program, List.length_map, length_values enough]
  · rw [sample_eq (n := 1) 2993 (Draw.sequence · 1) (by decide) (by decide +kernel)]
    decide +kernel

end TacBench.Bench.ManyParameters
