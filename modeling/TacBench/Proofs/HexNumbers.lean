import Mathlib.Algebra.Order.Field.Power
import Mathlib.Algebra.Order.Ring.Rat
import Mathlib.Data.List.TakeWhile
import Mathlib.Tactic.Linarith
import Mathlib.Tactic.Positivity
import Mathlib.Tactic.Ring
import TacBench.Number.Hexadecimal
import TacBench.Proofs.Numerals

/-! Hexadecimal numbers beyond the range. A number rounds beyond the largest one from half a last
place above it on, which is 2^1024 - 2^970. The form of the number is a sign, a mark, digits with a
point and a binary exponent; what follows it does not matter to the range. -/
namespace TacBench.Binary64

variable {num den k : Nat}

theorem halfEven_bounds (num den : Nat) :
    num / den ≤ halfEven num den ∧ halfEven num den ≤ num / den + 1 := by
  unfold halfEven
  dsimp only
  repeat' split
  all_goals omega

/-- An even number is reached from half a step below on. -/
theorem le_halfEven_iff (even : k % 2 = 0) (pos : 0 < den) :
    k ≤ halfEven num den ↔ 2 * k * den ≤ 2 * num + den := by
  have whole := Nat.div_add_mod num den
  have small := Nat.mod_lt num pos
  have bounds := halfEven_bounds num den
  generalize quotient : num / den = q at *
  generalize remainder : num % den = r at *
  rcases Nat.lt_trichotomy k (q + 1) with below | rfl | above
  · have reached : k * den ≤ den * q := by
      rw [Nat.mul_comm den]
      exact Nat.mul_le_mul_right den (by omega)
    constructor
    · intro _
      rw [Nat.mul_assoc]
      omega
    · intro _
      omega
  · have odd : q % 2 = 1 := by omega
    have product : 2 * (q + 1) * den = 2 * (den * q) + 2 * den := by ring
    simp only [halfEven, quotient, remainder]
    repeat' split
    all_goals omega
  · have missed : den * (q + 2) ≤ k * den := by
      rw [Nat.mul_comm den]
      exact Nat.mul_le_mul_right den above
    rw [Nat.mul_add] at missed
    constructor
    · intro _
      omega
    · intro enough
      rw [Nat.mul_assoc] at enough
      omega

-- The definitions write powers in full, so the library's lemmas are needed in that spelling.
theorem two_pow_pos (n : Nat) : 0 < Nat.pow 2 n := Nat.two_pow_pos n

theorem two_pow_add (a b : Nat) : Nat.pow 2 (a + b) = Nat.pow 2 a * Nat.pow 2 b := Nat.pow_add 2 a b

theorem two_pow_le {a b : Nat} (le : a ≤ b) : Nat.pow 2 a ≤ Nat.pow 2 b :=
  Nat.pow_le_pow_right (by decide) le

theorem lt_excess (n : Nat) : n < Nat.pow 2 53 * Nat.pow 2 (excessBits n) := by
  have bound : n < Nat.pow 2 (n.log2 + 1) := Nat.lt_log2_self
  have grows : Nat.pow 2 (n.log2 + 1) ≤ Nat.pow 2 (53 + excessBits n) := by
    apply two_pow_le
    unfold excessBits
    omega
  rw [two_pow_add 53] at grows
  exact Nat.lt_of_lt_of_le bound grows

theorem excess_le {n : Nat} (long : 0 < excessBits n) :
    Nat.pow 2 52 * Nat.pow 2 (excessBits n) ≤ n := by
  have exponent : 52 + excessBits n = n.log2 := by
    unfold excessBits at long ⊢
    omega
  have positive : n ≠ 0 := by
    rintro rfl
    exact absurd long (by decide)
  have bound : Nat.pow 2 n.log2 ≤ n := Nat.log2_self_le positive
  rw [← exponent, two_pow_add] at bound
  exact bound

/-- A ratio rounds to a power of two or beyond from half a last place below it on. -/
theorem le_roundUnits_iff (t : Nat) (pos : 0 < den) :
    Nat.pow 2 (54 + t) ≤ roundUnits num den ↔
      Nat.pow 2 54 * (Nat.pow 2 t * den) ≤ num + Nat.pow 2 t * den := by
  have above := lt_excess (num / den)
  have below := @excess_le (num / den)
  have bounds := halfEven_bounds num (den * Nat.pow 2 (excessBits (num / den)))
  rw [← Nat.div_div_eq_div_mul] at bounds
  rw [roundUnits, two_pow_add]
  generalize excessBits (num / den) = s at *
  have power := two_pow_pos t
  have unit : 0 < Nat.pow 2 t * den := Nat.mul_pos power pos
  have mantissa : Nat.pow 2 54 = 18014398509481984 := rfl
  have half : Nat.pow 2 53 = 9007199254740992 := rfl
  rcases Nat.lt_trichotomy s (t + 1) with short | rfl | long
  · -- the result is at most half of the power
    have steps : Nat.pow 2 s ≤ Nat.pow 2 t := two_pow_le (by omega)
    have quotient : num / den / Nat.pow 2 s < Nat.pow 2 53 :=
      Nat.div_lt_of_lt_mul (by rwa [Nat.mul_comm])
    have rounded : halfEven num (den * Nat.pow 2 s) * Nat.pow 2 s ≤ Nat.pow 2 53 * Nat.pow 2 t :=
      Nat.mul_le_mul (by omega) steps
    have ratio : num < Nat.pow 2 53 * Nat.pow 2 t * den :=
      (Nat.div_lt_iff_lt_mul pos).mp (Nat.lt_of_lt_of_le above (Nat.mul_le_mul_left _ steps))
    rw [half] at rounded
    rw [half, Nat.mul_assoc] at ratio
    rw [mantissa]
    exact iff_of_false (by omega) (by omega)
  · -- the power is the next mantissa, an even one
    have double : Nat.pow 2 (t + 1) = 2 * Nat.pow 2 t := by rw [Nat.add_comm, two_pow_add]
    have last : Nat.pow 2 54 * Nat.pow 2 t = Nat.pow 2 53 * Nat.pow 2 (t + 1) := by
      rw [double, ← Nat.mul_assoc]
    have wide : den * Nat.pow 2 (t + 1) = 2 * (Nat.pow 2 t * den) := by
      rw [double]
      ring
    rw [last, Nat.mul_le_mul_right_iff (two_pow_pos _), wide,
      le_halfEven_iff (by decide) (by omega), half, mantissa]
    omega
  · -- the ratio itself has reached the power
    have steps : 4 * Nat.pow 2 t ≤ Nat.pow 2 s := by
      have : Nat.pow 2 (2 + t) ≤ Nat.pow 2 s := two_pow_le (by omega)
      rwa [two_pow_add] at this
    have large := below (by omega)
    have quotient : Nat.pow 2 52 ≤ num / den / Nat.pow 2 s :=
      (Nat.le_div_iff_mul_le (two_pow_pos s)).mpr large
    have rounded : Nat.pow 2 52 * (4 * Nat.pow 2 t) ≤
        halfEven num (den * Nat.pow 2 s) * Nat.pow 2 s :=
      Nat.mul_le_mul (by omega) steps
    have ratio : Nat.pow 2 52 * (4 * Nat.pow 2 t) * den ≤ num :=
      (Nat.le_div_iff_mul_le pos).mp (Nat.le_trans (Nat.mul_le_mul_left _ steps) large)
    have quarter : Nat.pow 2 52 * (4 * Nat.pow 2 t) = Nat.pow 2 54 * Nat.pow 2 t := by
      rw [← Nat.mul_assoc]
    rw [quarter] at rounded ratio
    rw [Nat.mul_assoc] at ratio
    exact iff_of_true rounded (by omega)

/-- From here on a number rounds beyond the largest one. -/
def TooLarge (digits : Nat) (exponent : Int) : Prop :=
  (2 : ℚ) ^ 1024 - 2 ^ 970 ≤ digits * 2 ^ exponent

theorem cast_two_pow (n : Nat) : ((Nat.pow 2 n : Nat) : ℚ) = 2 ^ n := Nat.cast_pow 2 n

variable {digits : Nat} {exponent : Int}

theorem limit_eq {t : Nat} (place : 2098 = 54 + t) : limit = Nat.pow 2 (54 + t) := by
  unfold limit
  generalize 2098 = n at *
  subst place
  rfl

theorem limit_le_iff_tooLarge (pos : 0 < den)
    (ratio : (num : ℚ) = digits * 2 ^ exponent * 2 ^ 1074 * den) :
    limit ≤ roundUnits num den ↔ TooLarge digits exponent := by
  have place : (2 : ℚ) ^ 2044 = 2 ^ 970 * 2 ^ 1074 := pow_add 2 970 1074
  have top : (2 : ℚ) ^ 1024 = 2 ^ 54 * 2 ^ 970 := pow_add 2 54 970
  have unit : 0 < (2 : ℚ) ^ 1074 * den := by positivity
  have scaled : TooLarge digits exponent ↔ (2 ^ 54 * 2 ^ 970 - 2 ^ 970) * ((2 : ℚ) ^ 1074 * den) ≤
      digits * 2 ^ exponent * (2 ^ 1074 * den) := by
    rw [TooLarge, top]
    exact (mul_le_mul_iff_of_pos_right unit).symm
  rw [limit_eq (show 2098 = 54 + 2044 from rfl), le_roundUnits_iff 2044 pos, scaled,
    ← Nat.cast_le (α := ℚ)]
  push_cast [cast_two_pow]
  rw [ratio, place]
  generalize (2 : ℚ) ^ 970 = a
  generalize (2 : ℚ) ^ 1074 = b
  constructor
  · intro reached
    linarith
  · intro reached
    linarith

theorem range_pos : (1 : ℚ) ≤ 2 ^ 1024 - 2 ^ 970 := by
  have place : (1 : ℚ) ≤ 2 ^ 970 := one_le_pow₀ (by norm_num)
  rw [show (2 : ℚ) ^ 1024 = 2 ^ 54 * 2 ^ 970 from pow_add 2 54 970]
  generalize (2 : ℚ) ^ 970 = a at *
  linarith

theorem tooLarge_of_high (some : digits ≠ 0) (high : 1024 < (digits.log2 : Int) + 1 + exponent) :
    TooLarge digits exponent := by
  have least : (2 : ℚ) ^ (digits.log2 : Int) ≤ digits := by
    rw [zpow_natCast, ← cast_two_pow]
    exact Nat.cast_le.mpr (Nat.log2_self_le some)
  have reached : (2 : ℚ) ^ 1024 ≤ digits * 2 ^ exponent :=
    calc (2 : ℚ) ^ 1024 = 2 ^ (1024 : Int) := (zpow_natCast 2 1024).symm
      _ ≤ 2 ^ ((digits.log2 : Int) + exponent) := zpow_le_zpow_right₀ (by norm_num) (by omega)
      _ = 2 ^ (digits.log2 : Int) * 2 ^ exponent := zpow_add₀ (by norm_num) _ _
      _ ≤ digits * 2 ^ exponent := mul_le_mul_of_nonneg_right least (by positivity)
  exact le_trans (sub_le_self _ (by positivity)) reached

theorem not_tooLarge_of_low (low : (digits.log2 : Int) + 1 + exponent < -1074) :
    ¬ TooLarge digits exponent := by
  have most : (digits : ℚ) < 2 ^ ((digits.log2 : Int) + 1) := by
    have bound : digits < Nat.pow 2 (digits.log2 + 1) := Nat.lt_log2_self
    rw [← Nat.cast_succ, zpow_natCast, ← cast_two_pow]
    exact Nat.cast_lt.mpr bound
  have missed : digits * (2 : ℚ) ^ exponent < 1 :=
    calc digits * (2 : ℚ) ^ exponent < 2 ^ ((digits.log2 : Int) + 1) * 2 ^ exponent :=
          mul_lt_mul_of_pos_right most (by positivity)
      _ = 2 ^ ((digits.log2 : Int) + 1 + exponent) := (zpow_add₀ (by norm_num) _ _).symm
      _ ≤ 2 ^ (0 : Int) := zpow_le_zpow_right₀ (by norm_num) (by omega)
      _ = 1 := zpow_zero 2
  unfold TooLarge
  exact not_le.mpr (lt_of_lt_of_le missed range_pos)

theorem cast_two_pow_toNat {z : Int} (nonneg : 0 ≤ z) :
    ((Nat.pow 2 z.toNat : Nat) : ℚ) = 2 ^ z := by
  rw [cast_two_pow, ← zpow_natCast, Int.toNat_of_nonneg nonneg]

theorem limit_le_units_iff :
    limit ≤ (if 0 ≤ exponent + 1074 then roundUnits (digits * Nat.pow 2 (exponent + 1074).toNat) 1
      else roundUnits digits (Nat.pow 2 (-(exponent + 1074)).toNat)) ↔
      TooLarge digits exponent := by
  have shift : (2 : ℚ) ^ (exponent + 1074) = 2 ^ exponent * 2 ^ 1074 := by
    simp only [zpow_add₀ (two_ne_zero (α := ℚ)), zpow_ofNat]
  split
  · rename_i nonneg
    apply limit_le_iff_tooLarge Nat.one_pos
    rw [Nat.cast_mul, cast_two_pow_toNat nonneg, shift, Nat.cast_one, mul_one, mul_assoc]
  · rename_i negative
    apply limit_le_iff_tooLarge (two_pow_pos _)
    rw [cast_two_pow_toNat (by omega), mul_assoc (digits : ℚ), ← shift, zpow_neg, mul_assoc,
      mul_inv_cancel₀ (by positivity), mul_one]

theorem settled_overflow_iff {units : Nat} {x : Binary64} :
    (if units < limit then .ok x else .error .overflow : Except HexFault Binary64) =
      .error .overflow ↔
      limit ≤ units := by
  rw [← not_lt]
  split
  · rename_i inside
    simp [inside]
  · rename_i outside
    simp [outside]

theorem ofBinary_overflow_iff (negative : Bool) (digits : Nat) (exponent : Int) :
    ofBinary negative digits exponent = .error .overflow ↔ TooLarge digits exponent := by
  unfold ofBinary
  dsimp only
  split
  · rename_i none
    subst none
    have small : ¬ TooLarge 0 exponent := by
      rw [TooLarge, Nat.cast_zero, zero_mul]
      exact not_le.mpr (lt_of_lt_of_le zero_lt_one range_pos)
    simp [small]
  · rename_i some
    split
    · rename_i high
      simp [tooLarge_of_high some high]
    · split
      · rename_i low
        simp [not_tooLarge_of_low low]
      · exact settled_overflow_iff.trans limit_le_units_iff

/-! The form of a number -/

open Text

/-- The longest run of characters of one class at the front of a text, and what follows it. -/
structure LongestRun (p : Char → Bool) (s run rest : List Char) : Prop where
  split : s = run ++ rest
  inside : ∀ c ∈ run, p c = true
  ended : ∀ c ∈ rest.head?, p c = false

/-- A sign or none. -/
inductive Signed : List Char → Bool → List Char → Prop where
  | minus (r : List Char) : Signed ('-' :: r) true r
  | plus (r : List Char) : Signed ('+' :: r) false r
  | absent {s : List Char} (minus : s.head? ≠ some '-') (plus : s.head? ≠ some '+') :
      Signed s false s

/-- The mark of base sixteen or none. -/
inductive Marked : List Char → List Char → Prop where
  | small (r : List Char) : Marked ('0' :: 'x' :: r) r
  | capital (r : List Char) : Marked ('0' :: 'X' :: r) r
  | absent {s : List Char} (small : ∀ r, s ≠ '0' :: 'x' :: r) (capital : ∀ r, s ≠ '0' :: 'X' :: r) :
      Marked s s

/-- A point with digits or none. -/
inductive Fraction : List Char → List Char → List Char → Prop where
  | digits {s ds rest : List Char} (longest : LongestRun isHexDigit s ds rest) :
      Fraction ('.' :: s) ds rest
  | absent {s : List Char} (point : s.head? ≠ some '.') : Fraction s [] s

def exponentOf (negative : Bool) (digits : List Char) : Int :=
  let n := numeral 10 (digits.map fun c => c.toNat - 48)
  if negative then -n else n

/-- A letter, a sign and decimal digits, or no exponent. -/
inductive Exponent : List Char → Int → List Char → Prop where
  | digits {c : Char} {s r ds rest : List Char} {negative : Bool} (letter : c = 'p' ∨ c = 'P')
      (sign : Signed s negative r) (longest : LongestRun isAsciiDigit r ds rest) (some : ds ≠ []) :
      Exponent (c :: s) (exponentOf negative ds) rest
  | absent {s : List Char} (small : s.head? ≠ some 'p') (capital : s.head? ≠ some 'P') :
      Exponent s 0 s

/-- A text that begins with a hexadecimal number of so many digits, the last of them worth that
power of two. What follows the number is not looked at. -/
inductive Hexadecimal : List Char → Nat → Int → Prop where
  | number {text blanks s r body whole behind fraction tail rest : List Char}
      {negative : Bool} {e : Int} (blank : LongestRun isAsciiBlank text blanks s)
      (sign : Signed s negative r) (mark : Marked r body)
      (digits : LongestRun isHexDigit body whole behind) (point : Fraction behind fraction tail)
      (some : whole ≠ [] ∨ fraction ≠ []) (power : Exponent tail e rest) :
      Hexadecimal text (numeral 16 ((whole ++ fraction).filterMap hexValue?))
        (e - 4 * fraction.length)

section Reading

variable {p : Char → Bool} {s run rest r ds : List Char} {negative : Bool} {e : Int}

theorem longestRun_iff : LongestRun p s run rest ↔ s.takeWhile p = run ∧ s.dropWhile p = rest := by
  constructor
  · rintro ⟨rfl, inside, ended⟩
    have stops : rest.takeWhile p = [] ∧ rest.dropWhile p = rest := by
      cases rest with
      | nil => exact ⟨rfl, rfl⟩
      | cons c r => simp [ended c rfl]
    rw [List.takeWhile_append_of_pos inside, List.dropWhile_append_of_pos inside, stops.1, stops.2]
    exact ⟨List.append_nil run, rfl⟩
  · rintro ⟨rfl, rfl⟩
    refine ⟨List.takeWhile_append_dropWhile.symm, fun c => List.mem_takeWhile_imp, ?_⟩
    intro c first
    have stops := List.head?_dropWhile_not p s
    rw [Option.mem_def.mp first] at stops
    simpa using stops

theorem signed_iff : Signed s negative r ↔ Integer.signed s = (negative, r) := by
  constructor
  · intro form
    cases form with
    | minus => rfl
    | plus => rfl
    | absent minus plus =>
      cases s with
      | nil => rfl
      | cons c s => exact Integer.signed_other (by simpa using minus) (by simpa using plus) s
  · intro read
    unfold Integer.signed at read
    split at read <;> cases read
    · exact .minus _
    · exact .plus _
    · rename_i minus plus
      refine .absent ?_ ?_
      · intro first
        obtain ⟨s, rfl⟩ := List.head?_eq_some_iff.mp first
        exact minus _ rfl
      · intro first
        obtain ⟨s, rfl⟩ := List.head?_eq_some_iff.mp first
        exact plus _ rfl

/-- The text without the mark of base sixteen. -/
def unmarked : List Char → List Char
  | '0' :: 'x' :: r | '0' :: 'X' :: r => r
  | r => r

theorem marked_iff : Marked s r ↔ unmarked s = r := by
  constructor
  · intro form
    cases form with
    | small => rfl
    | capital => rfl
    | absent small capital =>
      unfold unmarked
      split
      · exact absurd rfl (small _)
      · exact absurd rfl (capital _)
      · rfl
  · intro read
    unfold unmarked at read
    split at read <;> cases read
    · exact .small _
    · exact .capital _
    · rename_i small capital
      exact .absent (fun r same => small r same) (fun r same => capital r same)

/-- The digits behind a point, and what follows them. -/
def fractionOf : List Char → List Char × List Char
  | '.' :: r => (r.takeWhile isHexDigit, r.dropWhile isHexDigit)
  | r => ([], r)

theorem fraction_iff : Fraction s ds rest ↔ fractionOf s = (ds, rest) := by
  constructor
  · intro form
    cases form with
    | digits longest =>
      obtain ⟨rfl, rfl⟩ := longestRun_iff.mp longest
      rfl
    | absent point =>
      unfold fractionOf
      split
      · exact absurd rfl point
      · rfl
  · intro read
    unfold fractionOf at read
    split at read <;> cases read
    · exact .digits (longestRun_iff.mpr ⟨rfl, rfl⟩)
    · rename_i point
      refine .absent fun first => ?_
      obtain ⟨s, rfl⟩ := List.head?_eq_some_iff.mp first
      exact point _ rfl

theorem readBinaryExponent_cons (c : Char) (s : List Char) : readBinaryExponent (c :: s) =
    if c = 'p' ∨ c = 'P' then
      if ((Integer.signed s).2.takeWhile isAsciiDigit).isEmpty then none
      else some (exponentOf (Integer.signed s).1 ((Integer.signed s).2.takeWhile isAsciiDigit),
        (Integer.signed s).2.dropWhile isAsciiDigit)
    else some (0, c :: s) :=
  rfl

theorem exponent_iff : Exponent s e rest ↔ readBinaryExponent s = some (e, rest) := by
  constructor
  · intro form
    cases form with
    | digits letter sign longest some =>
      obtain ⟨rfl, rfl⟩ := longestRun_iff.mp longest
      rw [readBinaryExponent_cons, signed_iff.mp sign, if_pos letter, if_neg (by simpa using some)]
    | absent small capital =>
      cases s with
      | nil => rfl
      | cons c s => rw [readBinaryExponent_cons, if_neg (by simpa using And.intro small capital)]
  · intro read
    cases s with
    | nil =>
      cases read
      exact .absent nofun nofun
    | cons c s =>
      rw [readBinaryExponent_cons] at read
      split at read
      · rename_i letter
        split at read
        · cases read
        · rename_i some
          cases read
          exact .digits letter (signed_iff.mpr rfl) (longestRun_iff.mpr ⟨rfl, rfl⟩)
            (by simpa using some)
      · rename_i other
        cases read
        rw [not_or] at other
        exact .absent (by simpa using other.1) (by simpa using other.2)

/-- What is made of the digits before and behind the point and of what follows them. -/
def settledHex (negative : Bool) (whole : List Char) (parts : List Char × List Char) :
    Except HexFault Binary64 :=
  if whole.isEmpty && parts.1.isEmpty then .error .malformed
  else match readBinaryExponent parts.2 with
    | none => .error .malformed
    | some (e, rest) =>
      match ofBinary negative (numeral 16 ((whole ++ parts.1).filterMap hexValue?))
          (e - 4 * parts.1.length) with
      | .error f => .error f
      | .ok x => if rest.all isAsciiBlank then .ok x else .error .malformed

theorem ofHexText_eq (text : List Char) : ofHexText text =
    settledHex (Integer.signed (text.dropWhile isAsciiBlank)).1
      ((unmarked (Integer.signed (text.dropWhile isAsciiBlank)).2).takeWhile isHexDigit)
      (fractionOf ((unmarked (Integer.signed (text.dropWhile isAsciiBlank)).2).dropWhile
        isHexDigit)) :=
  rfl

theorem settledHex_overflow_iff {whole fraction tail : List Char} :
    settledHex negative whole (fraction, tail) = .error .overflow ↔
      (whole ≠ [] ∨ fraction ≠ []) ∧ ∃ e rest, readBinaryExponent tail = some (e, rest) ∧
        TooLarge (numeral 16 ((whole ++ fraction).filterMap hexValue?))
        (e - 4 * fraction.length) := by
  unfold settledHex
  dsimp only
  split
  · rename_i empty
    simp_all
  · rename_i digits
    have some : whole ≠ [] ∨ fraction ≠ [] := by simpa [or_iff_not_imp_left] using digits
    cases exponent : readBinaryExponent tail with
    | none => simp
    | some er =>
      obtain ⟨e, rest⟩ := er
      simp only [some, true_and, Option.some.injEq, Prod.mk.injEq, and_assoc, exists_and_left,
        exists_eq_left', ← ofBinary_overflow_iff negative]
      split
      · rename_i failed
        rw [failed]
      · rename_i x read
        rw [read]
        split <;> simp

/-- A hexadecimal number is beyond the range exactly if it rounds beyond the largest number. -/
theorem ofHexText_overflow_iff {text : List Char} :
    ofHexText text = .error .overflow ↔ ∃ digits exponent, Hexadecimal text digits exponent ∧
      TooLarge digits exponent := by
  rw [ofHexText_eq]
  constructor
  · intro overflow
    obtain ⟨some, e, rest, exponent, large⟩ := settledHex_overflow_iff.mp overflow
    exact ⟨_, _, .number (longestRun_iff.mpr ⟨rfl, rfl⟩) (signed_iff.mpr rfl) (marked_iff.mpr rfl)
      (longestRun_iff.mpr ⟨rfl, rfl⟩) (fraction_iff.mpr rfl) some (exponent_iff.mpr exponent),
      large⟩
  · rintro ⟨_, _, form, large⟩
    cases form with
    | number blank sign mark digits point some power =>
      obtain ⟨rfl, rfl⟩ := longestRun_iff.mp blank
      rw [signed_iff.mp sign, marked_iff.mp mark]
      obtain ⟨rfl, rfl⟩ := longestRun_iff.mp digits
      rw [fraction_iff.mp point]
      exact settledHex_overflow_iff.mpr ⟨some, _, _, exponent_iff.mp power, large⟩

end Reading

end TacBench.Binary64
