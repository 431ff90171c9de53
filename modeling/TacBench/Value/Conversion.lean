import TacBench.Value.Operation
import TacBench.Value.Template

/-! Conversions of one value, and its texts. -/
namespace TacBench.Value

def negation (v : Value) : Except Fault Value := .ok (.bool !v.holds)

/-- Texts are read as decimals. -/
def toFloatValue (v : Value) : Except Fault Value :=
  match v with
  | .float x => .ok (.float x)
  | .str s => match Binary64.ofText? s.seen with
    | some x => .ok (.float x)
    | Option.none => .error (.floatText s)
  | v => match v.integer? with
    | some n => (toFloat n).map .float
    | Option.none => .error (.floatKind v.kind)

/-- A whole number made from a finite one. -/
def wholeBy (f : Int → Int) : Binary64 → Except Fault Value
  | .nan => .error .undefinedInteger
  | .infinite _ => .error .infiniteInteger
  | .finite s u => .ok (.int (f (Binary64.signed s u)))

/-- The integer part; texts are read as integers. -/
def toIntValue (v : Value) : Except Fault Value :=
  match v with
  | .float x => wholeBy Binary64.truncate x
  | .str s => match Integer.ofText s.seen with
    | .ok n => .ok (.int n)
    | .error f => .error (.integerText f s)
  | v => match v.integer? with
    | some n => .ok (.int n)
    | Option.none => .error (.integerKind v.kind)

/-- The nearest integer, a half going to the even neighbour. -/
def roundEven (v : Value) : Except Fault Value :=
  match v with
  | .float x => wholeBy Binary64.nearest x
  | v => match v.integer? with
    | some n => .ok (.int n)
    | Option.none => .error (.notRoundable v.kind)

def two : Binary64 := .finite false (2 * Binary64.scale)

def half : Binary64 := .finite false (Binary64.scale / 2)

def oneAndHalf : Binary64 := .finite false (Binary64.scale + Binary64.scale / 2)

/-- The quarter of the interval of length two in which a number with this remainder lies. -/
def quarter (remainder : Binary64) : Except Fault Int :=
  match remainder.floorDiv half with
  | .nan => .error .undefinedInteger
  | .infinite _ => .error .infiniteInteger
  | .finite s u => .ok (Binary64.truncate (Binary64.signed s u))

/-- The way a number is rounded with halves to odd, chosen by its quarter: down, up, down, and in
the last quarter up unless the number is exactly half-way. -/
def oddWay (halfWay : Bool) (quarter : Int) : Except Fault (Int → Int) :=
  if quarter = 0 ∨ quarter = 2 then .ok Binary64.floor
  else if quarter = 1 then .ok Binary64.ceil
  else if quarter = 3 then .ok (if halfWay then Binary64.floor else Binary64.ceil)
  else .error .roundingCase

/-- Rounding with halves to odd, as the quarter table gives it. No integer is half-way. -/
def roundOdd (longest : Nat) (v : Value) : Except Fault Value :=
  match v with
  | .float x => do
    let way ← oddWay (x.mod two = oneAndHalf) (← quarter (x.mod two))
    wholeBy way x
  | .str s => .error (templateFault longest s)
  | v => match v.integer? with
    | some n => do
      let way ← oddWay false (← quarter (← toFloat (n % 2)))
      return .int (way (n * Binary64.scale))
    | Option.none => .error (.operands "%" v.kind .int)

/-- The text of one code point, given by its code. -/
def toCharValue (v : Value) : Except Fault Value :=
  match v.integer? with
  | Option.none => .error (.integerNeeded v.kind)
  | some n =>
    if n < -Int.pow 2 31 ∨ Int.pow 2 31 ≤ n then .error .characterSize
    else if n < 0 then .error .characterRange
    else match CodePoint.ofNat? n.toNat with
      | some c => .ok (.str [c])
      | Option.none => .error .characterRange

def length (v : Value) : Except Fault Value :=
  match v with
  | .str s => .ok (.int s.length)
  | v => .error (.noLength v.kind)

/-- The plain text of a value. -/
def text : Value → Except Fault Text
  | .none => .ok "None"
  | .bool b => .ok (if b then "True" else "False")
  | .int n => if Integer.hasText n then .ok (Integer.text n) else .error .textLimit
  | .float x => .ok x.text
  | .str s => .ok s

/-- The text that a program prints: truth values in small letters, and a blank in the place of the
sign of a number that is not negative. -/
def printed (v : Value) : Except Fault Text := do
  let plain ← v.text
  match v with
  | .bool b => return if b then "true" else "false"
  | .int n => return if n < 0 then plain else " " ++ plain
  | .float x => return x.sixDigits
  | _ => return plain

end TacBench.Value
