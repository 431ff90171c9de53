import TacBench.Machine.Access
import TacBench.Text.Lines

/-! The input command reads one line and makes a value of the wanted type from its beginning. -/
namespace TacBench.Machine

open Text

/-- The next line of the input without the blanks around it. -/
def readLine : Exec (List Char) := do
  let m ← get
  let (line, rest) := takeLine m.input
  set { m with input := rest }
  return strip line

/-- Text up to the next double quote; one at the beginning is passed over. -/
def quotedInput (s : List Char) : List Char :=
  match s with
  | '"' :: r => r.takeWhile (· != '"')
  | r => r.takeWhile (· != '"')

/-- Leading digits, or zero if there are none or too many. -/
def integerInput (s : List Char) : Int :=
  match Integer.ofText (s.takeWhile isDecimal) with
  | .ok n => n
  | .error _ => 0

/-- An exponent with at least one digit. -/
def exponentInput? : List Char → Option (List Char)
  | c :: r =>
    if c = 'e' ∨ c = 'E' then
      let (sign, r) := match r with
        | '+' :: r => (['+'], r)
        | '-' :: r => (['-'], r)
        | r => ([], r)
      match r.takeWhile isDecimal with
      | [] => none
      | ds => some (c :: sign ++ ds)
    else none
  | [] => none

/-- Leading digits with a fraction, or else with an exponent, or else alone. -/
def decimalInput? (s : List Char) : Option (List Char) :=
  match s.takeWhile isDecimal with
  | [] => none
  | whole =>
    let rest := s.dropWhile isDecimal
    let fraction := match rest with
      | '.' :: r => r.takeWhile isDecimal
      | _ => []
    if !fraction.isEmpty then some (whole ++ '.' :: fraction)
    else match exponentInput? rest with
      | some e => some (whole ++ e)
      | none => some whole

/-- A leading truth value in any letter case. Spelled with a long s it is recognised and has no
value. -/
def truthInput (s : List Char) : Value :=
  if spells ['t', 'r', 'u', 'e'] (s.take 4) then .bool true
  else if spells ['f', 'a', 'l', 's', 'e'] (s.take 5) then
    if (s.take 5).map Char.toLower = ['f', 'a', 'l', 's', 'e'] then .bool false else .none
  else .bool false

def readInput (target type : Source) : Exec Unit := do
  let s ← readLine
  match type with
  | .operand (.dataType .string) =>
    if s.isEmpty then throw (.value .indexRange)
    assign target (.value (.str (Text.ofChars (quotedInput s))))
  | .operand (.dataType .int) => assign target (.value (.int (integerInput s)))
  | .operand (.dataType .float) =>
    match decimalInput? s with
    | none => throw .noDecimal
    | some d =>
      match Binary64.ofText? d with
      | some x => assign target (.value (.float x))
      | none => assign target (.value (.float Binary64.zero))
  | .operand (.dataType .bool) => assign target (.value (truthInput s))
  | .operand _ => fail .unknownDataType
  | .value v => throw (.operandNeeded v.kind "data_type")

end TacBench.Machine
