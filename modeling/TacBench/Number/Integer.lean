import TacBench.Text.Blank
import TacBench.Text.Digit

/-! Decimal text of integers, which is limited to 4300 digits both ways, and the bits of integers in
two's complement. -/
namespace TacBench.Integer

open Text

inductive TextFault where
  | malformed
  | tooLong (digits : Nat)
  deriving DecidableEq, Repr

/-- The most digits that are read or written. -/
def digitLimit : Nat := 4300

/-- An integer: blanks, an optional sign, digits, blanks. -/
def ofText (text : List Char) : Except TextFault Int :=
  let s := text.dropWhile isNumberBlank
  let (negative, s) := match s with
    | '-' :: r => (true, r)
    | '+' :: r => (false, r)
    | r => (false, r)
  match readDigits digitValue? false s with
  | none => .error .malformed
  | some (ds, rest) =>
    if digitLimit < ds.length then .error (.tooLong ds.length)
    else if !rest.all isNumberBlank then .error .malformed
    else
      let n := numeral 10 ds
      .ok (if negative then -n else n)

/-- Whether an integer has a decimal text. -/
def hasText (n : Int) : Bool := n.natAbs < Nat.pow 10 digitLimit

def text (n : Int) : String := toString n

/-- Bitwise "and": a negative number has all high bits set. -/
def bitAnd : Int → Int → Int
  | .ofNat a, .ofNat b => (a &&& b : Nat)
  | .ofNat a, .negSucc b => (a - (a &&& b) : Nat)
  | .negSucc a, .ofNat b => (b - (a &&& b) : Nat)
  | .negSucc a, .negSucc b => .negSucc (a ||| b)

/-- Bitwise "or", by complement. -/
def bitOr (a b : Int) : Int := -1 - bitAnd (-1 - a) (-1 - b)

end TacBench.Integer
