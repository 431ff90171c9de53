import TacBench.Number.Integer

/-! Integers and their digits: the digits of a number are read as that number. -/
namespace TacBench

namespace Text

/-- The digits of a number are decimal digits, and no blanks. -/
theorem digit_of_mem_toDigits {n : Nat} {c : Char} (member : c ∈ Nat.toDigits 10 n) :
    digitValue? c = some (c.toNat - 48) ∧ isBlank c = false := by
  have digit := Nat.isDigit_of_mem_toDigits (by decide) (by decide) member
  rw [Char.isDigit, Bool.and_eq_true, decide_eq_true_iff, decide_eq_true_iff] at digit
  have low : 48 ≤ c.toNat := digit.1
  have high : c.toNat ≤ 57 := digit.2
  constructor
  · unfold digitValue?
    dsimp only
    rw [if_pos (by omega), if_pos ⟨low, high⟩]
  · simp only [isBlank]
    grind

end Text

namespace Integer

open Text

theorem readDigits_digits {s : List Char} (digits : ∀ c ∈ s, digitValue? c = some (c.toNat - 48)) :
    readDigits digitValue? true s = some (s.map (·.toNat - 48), []) := by
  induction s with
  | nil => rfl
  | cons c r ih =>
    rw [List.forall_mem_cons] at digits
    simp only [readDigits, digits.1, ih digits.2, Option.map_some, List.map_cons]

theorem numeral_toDigits (n : Nat) : numeral 10 ((Nat.toDigits 10 n).map (·.toNat - 48)) = n := by
  have whole := Nat.ofDigitChars_ten_toDigits (n := n)
  rw [Nat.ofDigitChars] at whole
  rw [numeral, List.foldl_map]
  simp only [Nat.mul_comm 10] at whole
  exact whole

/-- The sign in front of a number, and what follows it. -/
def signed : List Char → Bool × List Char
  | '-' :: r => (true, r)
  | '+' :: r => (false, r)
  | r => (false, r)

/-- What is made of the digits that have been read. -/
def settled (negative : Bool) : Option (List Nat × List Char) → Except TextFault Int
  | none => .error .malformed
  | some (ds, rest) =>
    if digitLimit < ds.length then .error (.tooLong ds.length)
    else if !rest.all isNumberBlank then .error .malformed
    else .ok (if negative then -numeral 10 ds else numeral 10 ds)

theorem ofText_eq (text : List Char) : ofText text =
    settled (signed (text.dropWhile isNumberBlank)).1
    (readDigits digitValue? false (signed (text.dropWhile isNumberBlank)).2) :=
  rfl

theorem signed_other {c : Char} (minus : c ≠ '-') (plus : c ≠ '+') (r : List Char) :
    signed (c :: r) = (false, c :: r) := by
  unfold signed
  split
  · rename_i opens
    exact absurd (List.cons.inj opens).1 minus
  · rename_i opens
    exact absurd (List.cons.inj opens).1 plus
  · rfl

/-- The digits of a number are read as that number, unless there are too many. -/
theorem ofText_toDigits {n : Nat} (few : (Nat.toDigits 10 n).length ≤ digitLimit) :
    ofText (Nat.toDigits 10 n) = .ok n := by
  have digits (c : Char) (member : c ∈ Nat.toDigits 10 n) := digit_of_mem_toDigits member
  have value := numeral_toDigits n
  cases written : Nat.toDigits 10 n with
  | nil => exact absurd written Nat.toDigits_ne_nil
  | cons c r =>
    rw [written] at digits few value
    have first := digits c List.mem_cons_self
    have unblank : isNumberBlank c = false := by simp [isNumberBlank, first.2]
    have unsigned : signed (c :: r) = (false, c :: r) := by
      refine signed_other ?_ ?_ r <;> rintro rfl <;> cases first.1
    have read : readDigits digitValue? false (c :: r) = some ((c :: r).map (·.toNat - 48), []) := by
      have rest := readDigits_digits fun c member => (digits c (List.mem_cons_of_mem _ member)).1
      simp only [readDigits, first.1, rest, Option.map_some, List.map_cons]
    rw [ofText_eq, List.dropWhile_cons_of_neg (by simp [unblank]), unsigned]
    dsimp only
    rw [read, settled, if_neg (by simpa using few), value]
    rfl

end Integer
end TacBench
