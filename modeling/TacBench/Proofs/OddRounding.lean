import Mathlib.Algebra.Order.Field.Basic
import Mathlib.Algebra.Ring.Int.Parity
import Mathlib.Tactic.IntervalCases
import TacBench.Proofs.HexNumbers
import TacBench.Value.Conversion

/-! Rounding with halves to odd. The way to round is taken from the quarter in which the remainder
by two lies. The remainder of a negative number is made by adding two, and between minus one and
zero that sum is rounded: just below zero it becomes two, for which there is no quarter, and just
above minus one half it becomes one and a half. Everywhere else the result is the nearest integer,
of two the odd one. -/
namespace TacBench

/-- The integer nearest to a number, of two the odd one. -/
structure NearestOdd (q : ℚ) (n : ℤ) : Prop where
  nearest : ∀ k : ℤ, |q - n| ≤ |q - k|
  odd : ∀ k : ℤ, k ≠ n → |q - k| = |q - n| → Odd n

namespace NearestOdd

variable {q : ℚ} {n k z d : ℤ} {c : ℕ}

theorem unique (first : NearestOdd q n) (second : NearestOdd q k) : k = n := by
  by_contra differ
  have same : |q - k| = |q - n| := le_antisymm (second.nearest n) (first.nearest k)
  have odds := (first.odd k differ same).add_odd (second.odd n (Ne.symm differ) same.symm)
  -- Half-way between two odd numbers lies an integer, which is nearer than both.
  obtain ⟨j, middle⟩ := odds.two_dvd
  have sum : (n : ℚ) + k = 2 * j := by exact_mod_cast middle
  have distinct : (k : ℚ) ≠ n := by exact_mod_cast differ
  have center : q = j := by
    rcases abs_eq_abs.mp same with equal | opposite
    · exact absurd (by linarith) distinct
    · linarith
  have close := first.nearest j
  rw [center, sub_self, abs_zero] at close
  have reached : (j : ℚ) - n = 0 := abs_nonpos_iff.mp close
  exact distinct (by linarith)

theorem iff_eq (found : NearestOdd q n) : NearestOdd q k ↔ k = n := by
  constructor
  · exact found.unique
  · rintro rfl
    exact found

/-- It is enough that the distance is at most one half, and that the integer is odd if it is one
half. -/
theorem of_half (near : |q - n| ≤ 1 / 2) (tie : |q - n| = 1 / 2 → Odd n) : NearestOdd q n := by
  have apart {k : ℤ} (differ : k ≠ n) : 1 ≤ |q - n| + |q - k| := by
    have gap : (1 : ℚ) ≤ |(k : ℚ) - n| := by exact_mod_cast Int.one_le_abs (sub_ne_zero.mpr differ)
    have triangle := abs_sub_le (k : ℚ) q n
    rw [abs_sub_comm (k : ℚ) q] at triangle
    linarith
  constructor
  · intro k
    by_cases same : k = n
    · rw [same]
    · have := apart same
      linarith
  · intro k differ same
    have := apart differ
    exact tie (by linarith)

/-- The same in units, so many of which make one. -/
theorem of_units (pos : 0 < c) (gap : z = n * c + d) (low : -c ≤ 2 * d) (high : 2 * d ≤ c)
    (tie : 2 * d = c ∨ 2 * d = -c → Odd n) : NearestOdd (z / c) n := by
  have unit : (0 : ℚ) < c := by exact_mod_cast pos
  have distance : (z : ℚ) / c - n = d / c := by
    rw [gap, Int.cast_add, Int.cast_mul, Int.cast_natCast, add_div,
      mul_div_cancel_right₀ _ unit.ne', add_sub_cancel_left]
  apply of_half
  · rw [distance, abs_le, ← neg_div, div_le_div_iff₀ two_pos unit, div_le_div_iff₀ unit two_pos]
    constructor
    · have : (-c : ℚ) ≤ 2 * d := by exact_mod_cast low
      linarith
    · have : 2 * (d : ℚ) ≤ c := by exact_mod_cast high
      linarith
  · intro half
    rw [distance, abs_eq (by norm_num), ← neg_div, div_eq_div_iff unit.ne' two_ne_zero,
      div_eq_div_iff unit.ne' two_ne_zero] at half
    refine tie (half.imp (fun up => ?_) fun down => ?_)
    · have : 2 * (d : ℚ) = c := by linarith
      exact_mod_cast this
    · have : 2 * (d : ℚ) = -c := by linarith
      exact_mod_cast this

end NearestOdd

namespace Binary64

variable {n e k y u den longest : Nat} {s : Bool} {z : Int}

/-! Results that need no rounding -/

theorem halfEven_exact (q : Nat) (pos : 0 < den) : halfEven (q * den) den = q := by
  simp [halfEven, Nat.mul_div_cancel q pos, pos]

theorem excessBits_le (bound : n < Nat.pow 2 (53 + e)) : excessBits n ≤ e := by
  unfold excessBits
  by_cases none : n = 0
  · subst none
    simp
  · have := (Nat.log2_lt none).mpr bound
    omega

/-- The format has every number of at most 53 significant bits. -/
theorem representable_of_dvd (low : e ≤ 2045) (bound : n < Nat.pow 2 (53 + e))
    (whole : Nat.pow 2 e ∣ n) :
    Representable (.finite s n) := by
  constructor
  · obtain ⟨t, place⟩ : ∃ t, 2098 = 54 + t := ⟨2044, rfl⟩
    rw [limit_eq place]
    exact Nat.lt_of_lt_of_le bound (two_pow_le (by omega))
  · exact dvd_trans (pow_dvd_pow 2 (excessBits_le bound)) whole

theorem Representable.roundUnits (exact : Representable (.finite s n)) (pos : 0 < den) :
    roundUnits (n * den) den = n := by
  have whole := exact.2
  rw [Binary64.roundUnits, Nat.mul_div_cancel n pos]
  generalize excessBits n = e at whole ⊢
  obtain ⟨q, rfl⟩ := whole
  rw [show Nat.pow 2 e * q * den = q * (den * Nat.pow 2 e) by ring,
    halfEven_exact q (Nat.mul_pos pos (two_pow_pos e)), Nat.mul_comm]

theorem Representable.ofRatio (exact : Representable (.finite s n)) (negative : Bool)
    (pos : 0 < den) :
    ofRatio negative (n * den) den = .finite negative n := by
  rw [Binary64.ofRatio, exact.roundUnits pos]
  exact if_pos exact.1

theorem ofSignedUnits_natCast (some : n ≠ 0) : ofSignedUnits false n = ofRatio false n 1 := by
  rw [ofSignedUnits, if_neg (by omega), Int.natAbs_natCast, decide_eq_false (by omega)]

theorem Representable.ofSignedUnits (exact : Representable (.finite s n)) :
    ofSignedUnits false n = .finite false n := by
  by_cases zero : n = 0
  · rw [zero]
    rfl
  · have ratio := exact.ofRatio false Nat.one_pos
    rwa [Nat.mul_one, ← ofSignedUnits_natCast zero] at ratio

/-- Subtraction of a number that is not larger, if the format has the difference. -/
theorem sub_of_add {w : Nat} (exact : Representable (.finite s n)) (sum : n + w = u) :
    sub (.finite false u) (.finite false w) = .finite false n := by
  have units : signed false u + signed true w = n := by
    simp only [signed, Bool.false_eq_true, if_false, if_true]
    omega
  change ofSignedUnits false (signed false u + signed true w) = _
  rw [units]
  exact exact.ofSignedUnits

/-! The spacing of the numbers from one to two -/

/-- The distance between neighbours from one to two, in units: it is 2^-52. -/
def spacing : Nat := Nat.pow 2 1022

-- The exponents are kept as variables, since the powers are too large to be worked out.
theorem spacing_power : ∃ e ≤ 1022, spacing = Nat.pow 2 e := by
  unfold spacing
  generalize 1022 = e
  exact ⟨e, Nat.le_refl e, Eq.refl _⟩

theorem spacing_pos : 0 < spacing := by
  obtain ⟨e, -, power⟩ := spacing_power
  rw [power]
  exact two_pow_pos e

theorem scale_eq : scale = 4503599627370496 * spacing := by
  unfold scale spacing
  obtain ⟨e, place⟩ : ∃ e, 1074 = 52 + e ∧ 1022 = e := ⟨1022, rfl, rfl⟩
  generalize 1074 = l at *
  generalize 1022 = k at *
  obtain ⟨rfl, rfl⟩ := place
  exact two_pow_add 52 k

theorem half_scale_eq : scale / 2 = 2251799813685248 * spacing := by
  rw [scale_eq]
  omega

theorem scale_eq_halves : scale = 2 * (scale / 2) := by
  rw [half_scale_eq, scale_eq]
  omega

theorem scale_pos : 0 < scale := by
  have := spacing_pos
  rw [scale_eq]
  omega

section Power

variable (power : spacing = Nat.pow 2 e)
include power

theorem lt_power (small : n < 2 * scale) : n < Nat.pow 2 (53 + e) := by
  have mantissa : Nat.pow 2 53 = 9007199254740992 := rfl
  rw [two_pow_add, mantissa, ← power]
  rw [scale_eq] at small
  omega

theorem le_excessBits (large : scale ≤ n) : e ≤ excessBits n := by
  have some : n ≠ 0 := by
    have := scale_pos
    omega
  rw [scale_eq, power] at large
  have high : 52 + e ≤ n.log2 := (Nat.le_log2 some).mpr ((two_pow_add 52 e).trans_le large)
  unfold excessBits
  omega

end Power

/-- A number from one on has no bits below the spacing. -/
theorem spacing_dvd (exact : Representable (.finite s u)) (large : scale ≤ u) : spacing ∣ u := by
  obtain ⟨e, -, power⟩ := spacing_power
  rw [power]
  exact dvd_trans (pow_dvd_pow 2 (le_excessBits power large)) exact.2

theorem representable_of_spacing (small : n < 2 * scale) (whole : spacing ∣ n) :
    Representable (.finite s n) := by
  obtain ⟨e, low, power⟩ := spacing_power
  apply representable_of_dvd (e := e) (by omega) (lt_power power small)
  rwa [← power]

theorem roundUnits_between (low : scale ≤ n) (high : n < 2 * scale) :
    roundUnits n 1 = halfEven n spacing * spacing := by
  obtain ⟨e, -, power⟩ := spacing_power
  have bits : excessBits n = e :=
    Nat.le_antisymm (excessBits_le (lt_power power high)) (le_excessBits power low)
  rw [roundUnits, Nat.div_one, bits, Nat.one_mul, ← power]

theorem representable_mul_power {b c : Nat} (few : k ≤ 4) (low : b ≤ 52) (bits : Nat.pow 2 b = c) :
    Representable (.finite s (k * (c * spacing))) := by
  obtain ⟨e, small, power⟩ := spacing_power
  rw [power, ← bits, ← two_pow_add]
  apply representable_of_dvd (e := b + e) (by omega)
  · rw [two_pow_add 53]
    exact Nat.mul_lt_mul_of_pos_right (Nat.lt_of_le_of_lt few (by decide)) (two_pow_pos _)
  · exact dvd_mul_left _ k

theorem representable_mul_scale (few : k ≤ 4) : Representable (.finite s (k * scale)) := by
  rw [scale_eq]
  exact representable_mul_power few (Nat.le_refl 52) rfl

theorem representable_mul_half (few : k ≤ 4) : Representable (.finite s (k * (scale / 2))) := by
  rw [half_scale_eq]
  exact representable_mul_power few (Nat.le_succ 51) rfl

/-! The remainder by two -/

/-- A number and its remainder by two, in units. -/
structure ExactRemainder (z : Int) (y : Nat) : Prop where
  below : y < 2 * scale
  whole : ∃ a : Int, z = a * (2 * scale) + y

theorem exactRemainder_mod (u : Nat) : ExactRemainder u (u % (2 * scale)) := by
  have pos := scale_pos
  refine ⟨Nat.mod_lt u (by omega), (u / (2 * scale) : Nat), ?_⟩
  exact_mod_cast (Nat.div_add_mod' u (2 * scale)).symm

theorem ExactRemainder.neg (exact : ExactRemainder z y) (some : y ≠ 0) :
    ExactRemainder (-z) (2 * scale - y) := by
  obtain ⟨below, a, rfl⟩ := exact
  refine ⟨by omega, -a - 1, ?_⟩
  rw [Nat.cast_sub below.le]
  push_cast
  ring

theorem ExactRemainder.neg_zero (exact : ExactRemainder z 0) : ExactRemainder (-z) 0 := by
  obtain ⟨below, a, rfl⟩ := exact
  refine ⟨below, -a, ?_⟩
  push_cast
  ring

theorem mod_two_zero (zero : u % (2 * scale) = 0) :
    (Binary64.finite s u).mod Value.two = .finite false 0 := by
  simp only [mod, Value.two]
  exact if_pos zero

theorem mod_two_positive (u : Nat) :
    (Binary64.finite false u).mod Value.two = .finite false (u % (2 * scale)) := by
  simp only [mod, Value.two]
  split
  · rename_i none
    rw [none]
  · rfl

theorem mod_two_negative (some : u % (2 * scale) ≠ 0) :
    (Binary64.finite true u).mod Value.two = ofSignedUnits false
    (2 * scale - u % (2 * scale) : Nat) := by
  have small := (exactRemainder_mod u).below
  have units : signed true (u % (2 * scale)) + signed false (2 * scale) =
      (2 * scale - u % (2 * scale) : Nat) := by
    simp only [signed, Bool.false_eq_true, if_false, if_true]
    omega
  simp only [mod, Value.two]
  rw [if_neg some, if_neg (by simp), ← units]
  rfl

/-- From one on the sum with two is exact. -/
theorem mod_two_far (exact : Representable (.finite true u)) (large : scale ≤ u)
    (some : u % (2 * scale) ≠ 0) :
    (Binary64.finite true u).mod Value.two = .finite false (2 * scale - u % (2 * scale)) := by
  have pos := scale_pos
  have double : spacing ∣ 2 * scale := by
    rw [scale_eq]
    exact ⟨9007199254740992, by ring⟩
  have whole : spacing ∣ 2 * scale - u % (2 * scale) :=
    Nat.dvd_sub double ((Nat.dvd_mod_iff double).mpr (spacing_dvd exact large))
  have fits : Representable (.finite false (2 * scale - u % (2 * scale))) :=
    representable_of_spacing (by omega) whole
  rw [mod_two_negative some]
  exact fits.ofSignedUnits

/-- An even number is left only from half a step above on. -/
theorem halfEven_le_iff {num den k : Nat} (even : k % 2 = 0) (pos : 0 < den) :
    halfEven num den ≤ k ↔ 2 * num ≤ 2 * k * den + den := by
  have whole := Nat.div_add_mod num den
  have small := Nat.mod_lt num pos
  have bounds := halfEven_bounds num den
  generalize quotient : num / den = q at *
  generalize remainder : num % den = r at *
  rcases Nat.lt_trichotomy q k with below | rfl | above
  · have missed : den * (q + 1) ≤ k * den := by
      rw [Nat.mul_comm den]
      exact Nat.mul_le_mul_right den below
    rw [Nat.mul_add] at missed
    rw [Nat.mul_assoc]
    exact iff_of_true (by omega) (by omega)
  · have product : 2 * q * den = 2 * (den * q) := by ring
    simp only [halfEven, quotient, remainder]
    repeat' split
    all_goals omega
  · have passed : (k + 1) * den ≤ den * q := by
      rw [Nat.mul_comm den]
      exact Nat.mul_le_mul_right den above
    rw [Nat.add_mul] at passed
    rw [Nat.mul_assoc]
    exact iff_of_false (by omega) (by omega)

/-- Where a sum between one and two comes to lie when it is rounded to the spacing. -/
theorem near_bounds (some : 0 < u) (small : u < scale)
    (rounded : y = halfEven (2 * scale - u) spacing * spacing) :
    scale ≤ y ∧ y ≤ 2 * scale ∧ (y ≤ scale + scale / 2 ↔ scale ≤ 2 * u + spacing) ∧
      (y < 2 * scale ↔ spacing < 2 * u) := by
  have pos := spacing_pos
  -- One, one and a half and two are even counts of the spacing.
  have least := @le_halfEven_iff (2 * scale - u) spacing 4503599627370496 rfl pos
  have middle := @halfEven_le_iff (2 * scale - u) spacing 6755399441055744 rfl pos
  have most := @halfEven_le_iff (2 * scale - u) spacing 9007199254740992 rfl pos
  have last := @le_halfEven_iff (2 * scale - u) spacing 9007199254740992 rfl pos
  rw [rounded, half_scale_eq]
  rw [scale_eq] at *
  generalize halfEven (2 * (4503599627370496 * spacing) - u) spacing = h at *
  have above {k : Nat} : k * spacing ≤ h * spacing ↔ k ≤ h := Nat.mul_le_mul_right_iff pos
  have below {k : Nat} : h * spacing ≤ k * spacing ↔ h ≤ k := Nat.mul_le_mul_right_iff pos
  rw [← Nat.mul_assoc, ← Nat.add_mul, ← Nat.not_le]
  refine ⟨above.mpr (least.mpr (by omega)), below.mpr (most.mpr (by omega)), ?_, ?_⟩
  · rw [below, middle]
    constructor <;> intro _ <;> omega
  · rw [above, last]
    constructor <;> intro _ <;> omega

/-- Below one the sum with two is rounded to the spacing. -/
theorem mod_two_near (some : 0 < u) (small : u < scale) :
    (Binary64.finite true u).mod Value.two =
      .finite false (halfEven (2 * scale - u) spacing * spacing) := by
  have same : u % (2 * scale) = u := Nat.mod_eq_of_lt (by omega)
  have inside : halfEven (2 * scale - u) spacing * spacing < limit := by
    have last : 2 * scale < limit := (representable_mul_scale (s := false) (k := 2) (by decide)).1
    exact Nat.lt_of_le_of_lt (near_bounds some small rfl).2.1 last
  rw [mod_two_negative (by omega), same, ofSignedUnits_natCast (by omega), ofRatio,
    roundUnits_between (by omega) (by omega)]
  exact if_pos inside

/-! The quarter of a remainder -/

theorem ofInt_small (few : k ≤ 4) : ofInt k = .finite false (k * scale) := by
  have table : ∀ k ≤ 4, ofInt (k : Nat) = .finite false (k * scale) := by decide +kernel
  exact table k few

/-- A remainder of at most two is divided by one half without rounding. -/
theorem floorDiv_half (low : y ≤ 2 * scale) :
    floorDiv (.finite false y) Value.half = .finite false (y / (scale / 2) * scale) := by
  have halves := scale_eq_halves
  have pos : 0 < scale / 2 := by
    have := scale_pos
    omega
  have few : y / (scale / 2) ≤ 4 := Nat.div_le_of_le_mul (by omega)
  have split := Nat.div_add_mod' y (scale / 2)
  simp only [floorDiv, Value.half]
  generalize y / (scale / 2) = k at few split ⊢
  have quotient : div (.finite false (k * (scale / 2))) (.finite false (scale / 2)) =
      .finite false (k * scale) := by
    change ofRatio false (k * (scale / 2) * scale) (scale / 2) = _
    rw [Nat.mul_right_comm]
    exact (representable_mul_scale (s := false) few).ofRatio false pos
  have floored : floor (signed false (k * scale)) = k := by
    change Int.fdiv ((k * scale : Nat) : Int) scale = k
    rw [Int.natCast_mul]
    exact Int.mul_fdiv_cancel _ (by exact_mod_cast scale_pos.ne')
  have rest := sub_of_add (representable_mul_scale (s := false) (Nat.zero_le 4))
    (by rw [Nat.zero_mul, Nat.zero_add (k * scale)])
  rw [sub_of_add (representable_mul_half (s := false) few) split, quotient, if_neg (by simp)]
  dsimp only
  split
  · rename_i zero
    rw [zero]
    rfl
  · rw [floored, ofInt_small few, rest, Nat.zero_mul]
    exact if_neg (by simp)

theorem quarter_eq (low : y ≤ 2 * scale) :
    Value.quarter (.finite false y) = .ok (y / (scale / 2) : Nat) := by
  have truncated : truncate (signed false (y / (scale / 2) * scale)) = (y / (scale / 2) : Nat) := by
    change Int.tdiv ((y / (scale / 2) * scale : Nat) : Int) scale = _
    rw [Int.natCast_mul]
    exact Int.mul_tdiv_cancel _ (by exact_mod_cast scale_pos.ne')
  simp only [Value.quarter, floorDiv_half low, truncated]

/-- The four quarters leave two cases, down and up, and a remainder of two leaves none. -/
theorem oddWay_quarter (low : y ≤ 2 * scale) :
    (Value.quarter (.finite false y) >>= Value.oddWay
      (Binary64.finite false y = Value.oneAndHalf)) =
      if y < scale / 2 ∨ scale ≤ y ∧ y ≤ scale + scale / 2 then .ok floor
      else if y < 2 * scale then .ok ceil
      else .error .roundingCase := by
  have tie : Value.oddWay (Binary64.finite false y = Value.oneAndHalf) (3 : Nat) =
      .ok (if y = scale + scale / 2 then floor else ceil) := by
    rw [Value.oddWay, Value.oneAndHalf, if_neg (by decide), if_neg (by decide), if_pos (by decide)]
    simp only [Binary64.finite.injEq, true_and, decide_eq_true_eq]
  have halves := scale_eq_halves
  have pos : 0 < scale / 2 := by
    have := scale_pos
    omega
  have split := Nat.div_add_mod' y (scale / 2)
  have small := Nat.mod_lt y pos
  have few : y / (scale / 2) ≤ 4 := Nat.div_le_of_le_mul (by omega)
  rw [quarter_eq low]
  generalize y / (scale / 2) = k at few split ⊢
  change Value.oddWay (Binary64.finite false y = Value.oneAndHalf) (k : Nat) = _
  interval_cases k
  · rw [if_pos (.inl (by omega)), Value.oddWay, if_pos (by decide)]
  · rw [if_neg (by omega), if_pos (by omega), Value.oddWay, if_neg (by decide), if_pos (by decide)]
  · rw [if_pos (.inr (by omega)), Value.oddWay, if_pos (by decide)]
  · rw [tie]
    by_cases half : y = scale + scale / 2
    · rw [if_pos half, if_pos (.inr (by omega))]
    · rw [if_neg half, if_neg (by omega), if_pos (by omega)]
  · rw [if_neg (by omega), if_neg (by omega)]
    rfl

theorem roundOdd_of_mod (mod : (Binary64.finite s u).mod Value.two = .finite false y)
    (low : y ≤ 2 * scale) :
    Value.roundOdd longest (.float (.finite s u)) =
      if y < scale / 2 ∨ scale ≤ y ∧ y ≤ scale + scale / 2 then .ok (.int (floor (signed s u)))
      else if y < 2 * scale then .ok (.int (ceil (signed s u)))
      else .error .roundingCase := by
  have chosen : Value.roundOdd longest (.float (.finite s u)) =
      (Value.quarter (.finite false y) >>=
        Value.oddWay (Binary64.finite false y = Value.oneAndHalf))
        >>= fun way => Value.wholeBy way (.finite s u) := by
    simp only [Value.roundOdd, mod, bind_assoc]
  rw [chosen, oddWay_quarter low]
  split
  · rfl
  · split <;> rfl

section Whole

variable {n d : Int} (gap : z = n * scale + d)
include gap

theorem floor_eq (low : 0 ≤ d) (high : d < scale) : floor z = n := by
  have pos : (0 : Int) < scale := by exact_mod_cast scale_pos
  rw [floor, gap, Int.fdiv_eq_ediv_of_nonneg _ pos.le, Int.add_comm,
    Int.add_mul_ediv_right _ _ pos.ne', Int.ediv_eq_zero_of_lt low high, Int.zero_add]

theorem ceil_eq (low : -scale < d) (high : d ≤ 0) : ceil z = n := by
  have opposite : -z = -n * scale + -d := by
    rw [gap]
    ring
  have below : floor (-z) = -n := floor_eq opposite (by omega) (by omega)
  have flipped : -floor (-z) = n := by rw [below, Int.neg_neg]
  exact flipped

end Whole

/-! The integer that is nearest -/

/-- The number that a signed count of units stands for. -/
def value (negative : Bool) (units : Nat) : ℚ := signed negative units / scale

/-- Where the remainder is exact, the quarters give the nearest integer. -/
theorem roundOdd_nearest (mod : (Binary64.finite s u).mod Value.two = .finite false y)
    (exact : ExactRemainder (signed s u) y) :
    ∃ n, Value.roundOdd longest (.float (.finite s u)) = .ok (.int n) ∧
      NearestOdd (value s u) n := by
  obtain ⟨below, a, whole⟩ := exact
  have halves := scale_eq_halves
  have first : signed s u = 2 * a * scale + y := by
    rw [whole]
    ring
  have second : signed s u = (2 * a + 1) * scale + (y - scale) := by
    rw [whole]
    ring
  have third : signed s u = (2 * a + 2) * scale + (y - 2 * scale) := by
    rw [whole]
    ring
  rw [roundOdd_of_mod mod below.le]
  by_cases down : y < scale / 2 ∨ scale ≤ y ∧ y ≤ scale + scale / 2
  · rw [if_pos down]
    rcases down with low | ⟨low, high⟩
    · rw [floor_eq first (by omega) (by omega)]
      exact ⟨_, rfl, .of_units scale_pos first (by omega) (by omega) (by omega)⟩
    · rw [floor_eq second (by omega) (by omega)]
      exact ⟨_, rfl, .of_units scale_pos second (by omega) (by omega) fun _ =>
        odd_two_mul_add_one a⟩
  · rw [if_neg down, if_pos below]
    by_cases low : y < scale
    · rw [ceil_eq second (by omega) (by omega)]
      exact ⟨_, rfl, .of_units scale_pos second (by omega) (by omega) fun _ =>
        odd_two_mul_add_one a⟩
    · rw [ceil_eq third (by omega) (by omega)]
      exact ⟨_, rfl, .of_units scale_pos third (by omega) (by omega) (by omega)⟩

theorem roundOdd_far (representable : Representable (.finite s u))
    (far : s = true → u < scale → u = 0) :
    ∃ n, Value.roundOdd longest (.float (.finite s u)) = .ok (.int n) ∧
      NearestOdd (value s u) n := by
  have remainder := exactRemainder_mod u
  cases s with
  | false => exact roundOdd_nearest (mod_two_positive u) remainder
  | true =>
    by_cases zero : u % (2 * scale) = 0
    · rw [zero] at remainder
      exact roundOdd_nearest (mod_two_zero zero) remainder.neg_zero
    · have large : scale ≤ u := by
        by_contra less
        rw [far rfl (by omega), Nat.zero_mod] at zero
        exact zero rfl
      exact roundOdd_nearest (mod_two_far representable large zero) (remainder.neg zero)

-- Between minus one and zero a number is counted from either end.
theorem signed_upper (u : Nat) : signed true u = 0 * scale + -u := by
  rw [signed, if_pos rfl, zero_mul, zero_add]

theorem signed_lower (u : Nat) : signed true u = -1 * scale + (scale - u) := by
  rw [signed_upper]
  ring

section Near

variable (some : 0 < u) (small : u < scale)
include some small

/-- Between minus one and zero the rounded remainder decides. -/
theorem roundOdd_near : Value.roundOdd longest (.float (.finite true u)) =
    if scale ≤ 2 * u + spacing then .ok (.int (-1))
    else if spacing < 2 * u then .ok (.int 0) else .error .roundingCase := by
  obtain ⟨low, high, half, whole⟩ := near_bounds some small rfl
  have halves := scale_eq_halves
  have large : ¬ halfEven (2 * scale - u) spacing * spacing < scale / 2 := by omega
  rw [roundOdd_of_mod (mod_two_near some small) high,
    floor_eq (signed_lower u) (by omega) (by omega), ceil_eq (signed_upper u) (by omega) (by omega)]
  simp only [low, half, whole, large, true_and, false_or]

theorem nearestOdd_near : NearestOdd (value true u) (if scale ≤ 2 * u then -1 else 0) := by
  split
  · exact .of_units scale_pos (signed_lower u) (by omega) (by omega) fun _ => odd_neg_one
  · exact .of_units scale_pos (signed_upper u) (by omega) (by omega) (by omega)

end Near

/-- So close below zero that the sum with two rounds to two. -/
def Vanishing (q : ℚ) : Prop := -(1 / 2 ^ 53) ≤ q ∧ q < 0

/-- So close above minus one half that the sum with two rounds to one and a half. -/
def BesideHalf (q : ℚ) : Prop := -(1 / 2) < q ∧ q ≤ -(1 / 2) + 1 / 2 ^ 53

theorem value_false_nonneg (u : Nat) : 0 ≤ value false u :=
  div_nonneg (Int.cast_nonneg (Int.natCast_nonneg u)) (Nat.cast_nonneg scale)

-- The spacing is hidden behind a variable, so that nothing tries to work it out.
theorem value_true (u : Nat) : ∃ t : ℚ, 0 < t ∧ (spacing : ℚ) = t ∧ (scale : ℚ) = 2 ^ 52 * t ∧
    value true u = -u / (2 ^ 52 * t) := by
  have size : (scale : ℚ) = 2 ^ 52 * spacing := by
    have power : ((4503599627370496 : ℕ) : ℚ) = 2 ^ 52 := by norm_num
    rw [scale_eq, Nat.cast_mul, power]
  refine ⟨spacing, by exact_mod_cast spacing_pos, rfl, size, ?_⟩
  rw [value, size, signed, if_pos rfl, Int.cast_neg, Int.cast_natCast]

theorem vanishing_iff : Vanishing (value s u) ↔ s = true ∧ 0 < u ∧ 2 * u ≤ spacing := by
  cases s with
  | false => simp [Vanishing, value_false_nonneg u]
  | true =>
    obtain ⟨t, pos, unit, -, number⟩ := value_true u
    rw [Vanishing, number, le_div_iff₀ (by positivity), div_lt_iff₀ (by positivity),
      ← Nat.cast_pos (α := ℚ), ← Nat.cast_le (α := ℚ), Nat.cast_mul, unit]
    push_cast
    constructor
    · rintro ⟨low, high⟩
      exact ⟨rfl, by linarith, by linarith⟩
    · rintro ⟨-, some, small⟩
      exact ⟨by linarith, by linarith⟩

theorem besideHalf_iff : BesideHalf (value s u) ↔ s = true ∧ 2 * u < scale ∧
    scale ≤ 2 * u + spacing := by
  cases s with
  | false =>
    have positive := value_false_nonneg u
    refine iff_of_false (fun beside => ?_) (by simp)
    have bound := beside.2
    norm_num at bound
    linarith
  | true =>
    obtain ⟨t, pos, unit, size, number⟩ := value_true u
    rw [BesideHalf, number, div_le_iff₀ (by positivity), lt_div_iff₀ (by positivity),
      ← Nat.cast_lt (α := ℚ), ← Nat.cast_le (α := ℚ), Nat.cast_add, Nat.cast_mul, unit, size]
    push_cast
    constructor
    · rintro ⟨low, high⟩
      exact ⟨rfl, by linarith, by linarith⟩
    · rintro ⟨-, low, high⟩
      exact ⟨by linarith, by linarith⟩

end Binary64

namespace Value

open Binary64

/-- An integer has the remainder zero or one, so it is taken down, and nothing is lost. -/
theorem roundOdd_integer {v : Value} {n : Int} {longest : Nat} (whole : v.integer? = some n) :
    roundOdd longest v = .ok (.int n) := by
  have taken : toFloat (n % 2) >>= quarter = .ok (2 * (n % 2)) := by
    rcases Int.emod_two_eq_zero_or_one n with even | odd
    · rw [even]
      decide +kernel
    · rw [odd]
      decide +kernel
  have down : oddWay false (2 * (n % 2)) = .ok floor := if_pos (by omega)
  have kept : floor (n * scale) = n :=
    floor_eq (Int.add_zero _).symm le_rfl (by exact_mod_cast scale_pos)
  have chosen : roundOdd longest v = (toFloat (n % 2) >>= quarter) >>= fun q =>
      oddWay false q >>= fun way => .ok (.int (way (n * scale))) := by
    rw [bind_assoc]
    cases v with
    | int _ => cases whole; rfl
    | bool _ => cases whole; rfl
    | none | float _ | str _ => cases whole
  rw [chosen, taken]
  change oddWay false (2 * (n % 2)) >>= _ = _
  rw [down]
  exact congrArg (fun k => Except.ok (Value.int k)) kept

/-- Rounding with halves to odd gives the nearest integer, of two the odd one, but in two intervals
of negative numbers: just below zero there is no result, and just above minus one half, where zero
is the nearest integer, the result is minus one. -/
theorem roundOdd_exact {s : Bool} {u : Nat} (representable : Representable (.finite s u))
    (longest : Nat) (i : Int) (b : Bool) :
    (Vanishing (value s u) → roundOdd longest (.float (.finite s u)) = .error .roundingCase ∧
      ∀ k, NearestOdd (value s u) k ↔ k = 0) ∧
    (BesideHalf (value s u) → roundOdd longest (.float (.finite s u)) = .ok (.int (-1)) ∧
      ∀ k, NearestOdd (value s u) k ↔ k = 0) ∧
    (¬ Vanishing (value s u) → ¬ BesideHalf (value s u) →
      ∃ n, roundOdd longest (.float (.finite s u)) = .ok (.int n) ∧
        ∀ k, NearestOdd (value s u) k ↔ k = n) ∧
    roundOdd longest (.int i) = .ok (.int i) ∧
    roundOdd longest (.bool b) = .ok (.int (if b then 1 else 0)) := by
  have size := scale_eq
  have pos := spacing_pos
  rw [vanishing_iff, besideHalf_iff]
  refine ⟨?_, ?_, ?_, roundOdd_integer rfl, roundOdd_integer rfl⟩
  · rintro ⟨rfl, some, tiny⟩
    have nearest := nearestOdd_near some (by omega)
    rw [if_neg (by omega)] at nearest
    rw [roundOdd_near some (by omega), if_neg (by omega), if_neg (by omega)]
    exact ⟨rfl, fun k => nearest.iff_eq⟩
  · rintro ⟨rfl, low, high⟩
    have nearest := nearestOdd_near (u := u) (by omega) (by omega)
    rw [if_neg (by omega)] at nearest
    rw [roundOdd_near (by omega) (by omega), if_pos (by omega)]
    exact ⟨rfl, fun k => nearest.iff_eq⟩
  · intro apart aside
    by_cases far : s = true → u < scale → u = 0
    · obtain ⟨n, rounded, nearest⟩ := roundOdd_far representable far
      exact ⟨n, rounded, fun k => nearest.iff_eq⟩
    · push Not at far
      obtain ⟨rfl, small, some⟩ := far
      simp only [true_and] at apart aside
      have nearest := nearestOdd_near (u := u) (by omega) small
      refine ⟨_, ?_, fun k => nearest.iff_eq⟩
      rw [roundOdd_near (by omega) small]
      by_cases half : scale ≤ 2 * u
      · rw [if_pos (by omega), if_pos half]
      · rw [if_neg (by omega), if_pos (by omega), if_neg half]

/-- Minus one and a half is rounded to minus one, which is odd, and not to minus two. -/
theorem minusThreeHalves_rounded : Representable (.finite true (3 * (scale / 2))) ∧
    roundOdd 0 (.float (.finite true (3 * (scale / 2)))) = .ok (.int (-1)) ∧
    ∀ k, NearestOdd (value true (3 * (scale / 2))) k ↔ k = -1 := by
  have representable : Representable (.finite true (3 * (scale / 2))) :=
    representable_mul_half (by decide)
  have size := scale_eq
  have half := half_scale_eq
  have pos := spacing_pos
  obtain ⟨-, -, right, -⟩ := roundOdd_exact representable 0 0 false
  obtain ⟨n, rounded, nearest⟩ :=
    right (by rw [vanishing_iff]; omega) (by rw [besideHalf_iff]; omega)
  have computed : roundOdd 0 (.float (.finite true (3 * (scale / 2)))) =
      .ok (.int (-1)) := by decide +kernel
  rw [computed] at rounded
  cases rounded
  exact ⟨representable, computed, nearest⟩

/-- Zero is the nearest integer of both the largest negative number, which has no quarter, and the
first number above minus one half, which is rounded down. -/
theorem negatives_misrounded :
    (Representable (.finite true 1) ∧ NearestOdd (value true 1) 0 ∧
      roundOdd 0 (.float (.finite true 1)) = .error .roundingCase) ∧
    Representable (.finite true (scale / 2 - spacing / 4)) ∧
      NearestOdd (value true (scale / 2 - spacing / 4)) 0 ∧
      roundOdd 0 (.float (.finite true (scale / 2 - spacing / 4))) = .ok (.int (-1)) := by
  have first := nearestOdd_near (u := 1) (by decide +kernel) (by decide +kernel)
  have second := nearestOdd_near (u := scale / 2 - spacing / 4) (by decide +kernel)
    (by decide +kernel)
  rw [if_neg (by decide +kernel)] at first second
  exact ⟨⟨⟨by decide +kernel, by decide +kernel⟩, first, by decide +kernel⟩,
    ⟨by decide +kernel, by decide +kernel⟩, second, by decide +kernel⟩

end Value
end TacBench
