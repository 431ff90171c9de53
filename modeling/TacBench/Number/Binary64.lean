/-! Binary64 numbers on exact integers. A finite number is a signed count of units of 2^-1074, the
distance between neighbours around zero, so that sums, remainders and comparisons are sums,
remainders and comparisons of integers. Every operation computes its exact result and rounds once,
to nearest with ties to even. Flags and traps are not modelled. -/
namespace TacBench

inductive Binary64 where
  | nan
  | infinite (negative : Bool)
  | finite (negative : Bool) (units : Nat)
  deriving DecidableEq, Repr, Inhabited

namespace Binary64

/-- Units in the number one. -/
def scale : Nat := Nat.pow 2 1074

/-- The first count of units that is too large. -/
def limit : Nat := Nat.pow 2 2098

def zero : Binary64 := .finite false 0

/-- The whole number nearest to `num / den`, of two the even one. -/
def halfEven (num den : Nat) : Nat :=
  let q := num / den
  let r := num % den
  if 2 * r < den then q
  else if den < 2 * r then q + 1
  else if q % 2 = 0 then q else q + 1

/-- The number of low bits of `n` beyond the 53 of a mantissa. -/
def excessBits (n : Nat) : Nat := n.log2 - 52

/-- `num / den` units, rounded to 53 significant bits. -/
def roundUnits (num den : Nat) : Nat :=
  let s := excessBits (num / den)
  halfEven num (den * Nat.pow 2 s) * Nat.pow 2 s

/-- The number nearest to `num / den` units. -/
def ofRatio (negative : Bool) (num den : Nat) : Binary64 :=
  let u := roundUnits num den
  if u < limit then .finite negative u else .infinite negative

/-- The numbers that the format has. -/
def Representable : Binary64 → Prop
  | .nan | .infinite _ => True
  | .finite _ u => u < limit ∧ Nat.pow 2 (excessBits u) ∣ u

def signed (negative : Bool) (units : Nat) : Int := if negative then -units else units

def isNegative : Binary64 → Bool
  | .nan => false
  | .infinite s | .finite s _ => s

def isZero : Binary64 → Bool
  | .finite _ u => u == 0
  | _ => false

def neg : Binary64 → Binary64
  | .nan => .nan
  | .infinite s => .infinite !s
  | .finite s u => .finite (!s) u

/-- A sum of units, rounded; the sign given serves an exact zero. -/
def ofSignedUnits (zeroNegative : Bool) (n : Int) : Binary64 :=
  if n = 0 then .finite zeroNegative 0 else ofRatio (n < 0) n.natAbs 1

/-- A zero sum is negative only if both terms are. -/
def add : Binary64 → Binary64 → Binary64
  | .finite s u, .finite t w => ofSignedUnits (s && t) (signed s u + signed t w)
  | .nan, _ | _, .nan => .nan
  | .infinite s, .infinite t => if s = t then .infinite s else .nan
  | .infinite s, _ | _, .infinite s => .infinite s

def sub (x y : Binary64) : Binary64 := add x (neg y)

def mul : Binary64 → Binary64 → Binary64
  | .finite s u, .finite t w => ofRatio (s != t) (u * w) scale
  | .nan, _ | _, .nan => .nan
  | .infinite s, .infinite t => .infinite (s != t)
  | .infinite s, .finite t w => if w = 0 then .nan else .infinite (s != t)
  | .finite s u, .infinite t => if u = 0 then .nan else .infinite (s != t)

/-- Quotient by a divisor that is not zero. -/
def div : Binary64 → Binary64 → Binary64
  | .finite s u, .finite t w => ofRatio (s != t) (u * scale) w
  | .nan, _ | _, .nan => .nan
  | .infinite _, .infinite _ => .nan
  | .infinite s, .finite t _ => .infinite (s != t)
  | .finite s _, .infinite t => .finite (s != t) 0

/-- Place on the extended line, for comparison; integers have the places of `placeOfInt`. -/
def place? : Binary64 → Option (Int × Int)
  | .nan => none
  | .infinite s => some (if s then -1 else 1, 0)
  | .finite s u => some (0, signed s u)

def placeOfInt (n : Int) : Int × Int := (0, n * scale)

def placeBefore (a b : Int × Int) : Bool := a.1 < b.1 || (a.1 == b.1 && a.2 < b.2)

/-- The number nearest to an integer, or `none` beyond the range. -/
def ofInt? (n : Int) : Option Binary64 :=
  match ofRatio (n < 0) (n.natAbs * scale) 1 with
  | .finite s u => some (.finite s u)
  | _ => none

/-- The correctly rounded quotient of two integers, or `none` beyond the range. -/
def ofQuotient? (a b : Int) : Option Binary64 :=
  match ofRatio (decide (a < 0) != decide (b < 0)) (a.natAbs * scale) b.natAbs with
  | .finite s u => some (.finite s u)
  | _ => none

/-- Integer part, towards zero. -/
def truncate (units : Int) : Int := Int.tdiv units scale

def floor (units : Int) : Int := Int.fdiv units scale

def ceil (units : Int) : Int := -Int.fdiv (-units) scale

/-- The nearest integer, of two the even one. -/
def nearest (units : Int) : Int :=
  let n : Int := halfEven units.natAbs scale
  if units < 0 then -n else n

/-- Remainder with the sign of the divisor: the exact remainder of the magnitudes, to which the
divisor is added, with one rounding, when the signs differ. The divisor is not zero. -/
def mod : Binary64 → Binary64 → Binary64
  | .finite s u, .finite t w =>
    let r := u % w
    if r = 0 then .finite t 0
    else if s = t then .finite s r
    else add (.finite s r) (.finite t w)
  | .finite s u, .infinite t =>
    if u = 0 then .finite t 0 else if s = t then .finite s u else .infinite t
  | _, _ => .nan

/-- A whole number, which may be too large. -/
def ofInt (n : Int) : Binary64 := (ofInt? n).getD (.infinite (n < 0))

/-- Whole quotient that goes with `mod`: the difference to the exact remainder is divided, and the
result is brought to a whole number. The divisor is not zero. -/
def floorDiv (x y : Binary64) : Binary64 :=
  match x, y with
  | .finite s u, .finite t w =>
    let r := u % w
    let q := div (sub x (.finite s r)) y
    let q := if r ≠ 0 ∧ s ≠ t then sub q (ofInt 1) else q
    match q with
    | .finite qs qu =>
      if qu = 0 then .finite (s != t) 0
      else
        let low := floor (signed qs qu)
        match sub q (ofInt low) with
        | .finite false d => if scale < 2 * d then add (ofInt low) (ofInt 1) else ofInt low
        | _ => ofInt low
    | _ => q
  | _, _ => .nan

end Binary64
end TacBench
