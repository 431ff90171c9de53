import TacBench.Number.Binary64
import TacBench.Text.Blank
import TacBench.Text.Digit

/-! Decimal text of binary64 numbers: reading with one rounding, the fewest digits that read back,
and a fixed number of significant or fractional digits. -/
namespace TacBench.Binary64

open Text

/-! Reading -/

/-- The units of `digits · 10^exponent`, rounded. Callers keep the exponent within some hundreds. -/
def decimalUnits (digits : Nat) (exponent : Int) : Nat :=
  if 0 ≤ exponent then roundUnits (digits * Nat.pow 10 exponent.toNat * scale) 1
  else roundUnits (digits * scale) (Nat.pow 10 (-exponent).toNat)

/-- The number nearest to `± digits · 10^exponent`. An exponent that puts the leading digit far
outside the range is settled without computing the power. -/
def ofDecimal (negative : Bool) (digits : Nat) (exponent : Int) : Binary64 :=
  if digits = 0 then .finite negative 0
  else
    let top : Int := (Nat.toDigits 10 digits).length + exponent
    if 310 < top then .infinite negative
    else if top < -330 then .finite negative 0
    else
      let u := decimalUnits digits exponent
      if u < limit then .finite negative u else .infinite negative

/-- Removes underscores, each of which stands between two ASCII digits. -/
def dropUnderscores (previous : Char) : List Char → Option (List Char)
  | [] => if previous = '_' then none else some []
  | c :: r =>
    if c = '_' then
      if isAsciiDigit previous then dropUnderscores c r else none
    else if previous = '_' && !isAsciiDigit c then none
    else (dropUnderscores c r).map (c :: ·)

def asciiValue (c : Char) : Nat := c.toNat - 48

/-- The exponent at the end of a decimal: nothing, or `e`, a sign and digits. -/
def readExponent : List Char → Option Int
  | [] => some 0
  | c :: r =>
    if c = 'e' ∨ c = 'E' then
      let (negative, ds) := match r with
        | '-' :: ds => (true, ds)
        | '+' :: ds => (false, ds)
        | ds => (false, ds)
      if ds.isEmpty || !ds.all isAsciiDigit then none
      else
        let n := numeral 10 (ds.map asciiValue)
        some (if negative then -n else n)
    else none

/-- Digits with an optional point and exponent. -/
def readMagnitude (negative : Bool) (s : List Char) : Option Binary64 :=
  let whole := s.takeWhile isAsciiDigit
  let rest := s.dropWhile isAsciiDigit
  let (fraction, tail) := match rest with
    | '.' :: r => (r.takeWhile isAsciiDigit, r.dropWhile isAsciiDigit)
    | r => ([], r)
  if whole.isEmpty && fraction.isEmpty then none
  else (readExponent tail).map fun e =>
    ofDecimal negative (numeral 10 ((whole ++ fraction).map asciiValue)) (e - fraction.length)

/-- A decimal, or the name of an infinity or of no number, in any letter case. -/
def ofText? (text : List Char) : Option Binary64 := do
  let s ← dropUnderscores ' ' ((stripBy isNumberBlank text).map asciiDigit)
  let (negative, body) := match s with
    | '-' :: r => (true, r)
    | '+' :: r => (false, r)
    | r => (false, r)
  let word := body.map Char.toLower
  if word = ['i', 'n', 'f'] ∨ word = ['i', 'n', 'f', 'i', 'n', 'i', 't', 'y'] then
    some (.infinite negative)
  else if word = ['n', 'a', 'n'] then some .nan
  else readMagnitude negative body

/-! Writing -/

/-- Counts the powers of ten that bring `units` up to one. -/
def leadingPlaces : Nat → Nat → Nat
  | 0, _ => 0
  | fuel + 1, units => if scale ≤ units then 0 else leadingPlaces fuel (units * 10) + 1

/-- The position of the leading digit: `10^(p-1) ≤ units < 10^p` for positive units. -/
def leadingPosition (units : Nat) : Int :=
  if scale ≤ units then (Nat.toDigits 10 (units / scale)).length
  else 1 - leadingPlaces 330 units

/-- Digits of `units` above the position `-exponent`, as the floor of the scaled value with the
fraction that is left, over a common denominator. -/
def scaledAt (units : Nat) (exponent : Int) : Nat × Nat :=
  if 0 ≤ exponent then (units, scale * Nat.pow 10 exponent.toNat)
  else (units * Nat.pow 10 (-exponent).toNat, scale)

/-- The nearest decimal with digits above `10^exponent` that reads back as `units`, if one does. -/
def readingBack? (units : Nat) (exponent : Int) : Option Nat :=
  let (num, den) := scaledAt units exponent
  let low := num / den
  let lowReads := decimalUnits low exponent = units
  let highReads := decimalUnits (low + 1) exponent = units
  if lowReads ∧ highReads then
    let r := num % den
    if 2 * r < den then some low
    else if den < 2 * r then some (low + 1)
    else some (if low % 2 = 0 then low else low + 1)
  else if lowReads then some low
  else if highReads then some (low + 1)
  else none

/-- Tries one digit more at a time; seventeen always suffice. -/
def shortestFrom (units : Nat) (position : Int) : Nat → Nat → Nat × Int
  | 0, count =>
    (halfEven (scaledAt units (position - count)).1 (scaledAt units (position - count)).2,
      position - count)
  | fuel + 1, count =>
    match readingBack? units (position - count) with
    | some d => (d, position - count)
    | none => shortestFrom units position fuel (count + 1)

/-- The fewest digits, with an exponent, that read back as positive `units`. -/
def shortest (units : Nat) : Nat × Int := shortestFrom units (leadingPosition units) 16 1

/-- How a decimal is laid out. -/
structure Layout where
  /-- Decimal exponents from here are written positionally … -/
  positionalFrom : Int
  /-- … up to below this one. -/
  positionalBelow : Int
  /-- Whole numbers keep a point and a zero. -/
  pointZero : Bool

def dropTrailingZeros (ds : List Char) : List Char := (ds.reverse.dropWhile (· == '0')).reverse

/-- Writes the digits of a number whose leading digit stands for `10^exponent`. -/
def Layout.write (l : Layout) (digits : List Char) (exponent : Int) : List Char :=
  let ds := dropTrailingZeros digits
  if l.positionalFrom ≤ exponent ∧ exponent < l.positionalBelow then
    if exponent < 0 then '0' :: '.' :: List.replicate (-exponent - 1).toNat '0' ++ ds
    else
      let whole := ds.take (exponent.toNat + 1)
      let whole := whole ++ List.replicate (exponent.toNat + 1 - whole.length) '0'
      match ds.drop (exponent.toNat + 1) with
      | [] => if l.pointZero then whole ++ ['.', '0'] else whole
      | fraction => whole ++ '.' :: fraction
  else
    let e := Nat.toDigits 10 exponent.natAbs
    let e := if e.length < 2 then '0' :: e else e
    let sign := if exponent < 0 then '-' else '+'
    ds.take 1 ++ (match ds.drop 1 with | [] => [] | f => '.' :: f) ++ 'e' :: sign :: e

/-- Shortest text: positional for decimal exponents from -4 to 15. -/
def shortLayout : Layout := ⟨-4, 16, true⟩

/-- Six significant digits: positional for decimal exponents from -4 to 5. -/
def sixDigitLayout : Layout := ⟨-4, 6, false⟩

def signMark (negative : Bool) : List Char := if negative then ['-'] else []

/-- The fewest digits that read back. -/
def text : Binary64 → String
  | .nan => "nan"
  | .infinite s => String.ofList (signMark s ++ ['i', 'n', 'f'])
  | .finite s u =>
    if u = 0 then String.ofList (signMark s ++ ['0', '.', '0'])
    else
      let (d, e) := shortest u
      let ds := Nat.toDigits 10 d
      String.ofList (signMark s ++ shortLayout.write ds (e + ds.length - 1))

/-- Six significant digits, with a blank in the place of a sign that is missing. -/
def sixDigits (x : Binary64) : String :=
  let mark := if x.isNegative then ['-'] else [' ']
  match x with
  | .nan => " nan"
  | .infinite _ => String.ofList (mark ++ ['i', 'n', 'f'])
  | .finite _ u =>
    if u = 0 then String.ofList (mark ++ ['0'])
    else
      let p := leadingPosition u
      let (num, den) := scaledAt u (p - 6)
      let d := halfEven num den
      let ds := Nat.toDigits 10 d
      String.ofList (mark ++ sixDigitLayout.write ds (p - 6 + ds.length - 1))

/-- Three fractional digits of a number that is not negative. -/
def threePlaces : Binary64 → String
  | .finite _ u =>
    let n := halfEven (u * 1000) scale
    let f := Nat.toDigits 10 (n % 1000)
    String.ofList (Nat.toDigits 10 (n / 1000) ++ '.' :: List.replicate (3 - f.length) '0' ++ f)
  | .infinite _ => "inf"
  | .nan => "nan"

end TacBench.Binary64
