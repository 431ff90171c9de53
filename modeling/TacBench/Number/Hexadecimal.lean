import TacBench.Number.Binary64
import TacBench.Text.Digit

/-! Hexadecimal text of binary64 numbers: `[sign] [0x] digits [. digits] [p exponent]`, rounded
once. Only ASCII blanks may surround it. Names of infinities are read by the decimal reader. -/
namespace TacBench.Binary64

open Text

inductive HexFault where
  | malformed
  | overflow
  deriving DecidableEq, Repr

def isAsciiBlank (c : Char) : Bool := (9 ≤ c.toNat && c.toNat ≤ 13) || c == ' '

/-- The number nearest to `± digits · 2^exponent`. -/
def ofBinary (negative : Bool) (digits : Nat) (exponent : Int) : Except HexFault Binary64 :=
  if digits = 0 then .ok (.finite negative 0)
  else
    let top : Int := digits.log2 + 1 + exponent
    if 1024 < top then .error .overflow
    else if top < -1074 then .ok (.finite negative 0)
    else
      let e := exponent + 1074
      let u := if 0 ≤ e then roundUnits (digits * Nat.pow 2 e.toNat) 1
        else roundUnits digits (Nat.pow 2 (-e).toNat)
      if u < limit then .ok (.finite negative u) else .error .overflow

/-- The binary exponent: nothing, or `p`, a sign and decimal digits. Returns what follows too. -/
def readBinaryExponent : List Char → Option (Int × List Char)
  | [] => some (0, [])
  | c :: r =>
    if c = 'p' ∨ c = 'P' then
      let (negative, ds) := match r with
        | '-' :: ds => (true, ds)
        | '+' :: ds => (false, ds)
        | ds => (false, ds)
      let digits := ds.takeWhile isAsciiDigit
      if digits.isEmpty then none
      else
        let n := numeral 10 (digits.map fun c => c.toNat - 48)
        some (if negative then -n else n, ds.dropWhile isAsciiDigit)
    else some (0, c :: r)

def isHexDigit (c : Char) : Bool := (hexValue? c).isSome

def ofHexText (text : List Char) : Except HexFault Binary64 :=
  let s := text.dropWhile isAsciiBlank
  let (negative, s) := match s with
    | '-' :: r => (true, r)
    | '+' :: r => (false, r)
    | r => (false, r)
  let s := match s with
    | '0' :: 'x' :: r | '0' :: 'X' :: r => r
    | r => r
  let whole := s.takeWhile isHexDigit
  let (fraction, tail) := match s.dropWhile isHexDigit with
    | '.' :: r => (r.takeWhile isHexDigit, r.dropWhile isHexDigit)
    | r => ([], r)
  if whole.isEmpty && fraction.isEmpty then .error .malformed
  else match readBinaryExponent tail with
    | none => .error .malformed
    | some (e, rest) =>
      let digits := numeral 16 ((whole ++ fraction).filterMap hexValue?)
      match ofBinary negative digits (e - 4 * fraction.length) with
      | .error f => .error f
      | .ok x => if rest.all isAsciiBlank then .ok x else .error .malformed

end TacBench.Binary64
