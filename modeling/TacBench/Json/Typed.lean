import TacBench.Json
import TacBench.Number.Integer
import TacBench.Value

/-! Values of the language as JSON, each with its kind. Numbers are texts, so that none of their
digits is lost; integers of more than 14000 bits are written in base sixteen. -/
namespace TacBench

def hexadecimalBits : Nat := 14000

def hexadecimalText (n : Int) : String :=
  (if n < 0 then "-0x" else "0x") ++ String.ofList (Nat.toDigits 16 n.natAbs)

def Value.toJson : Value → Json
  | .none => .null
  | .bool b => .dict [("bool", .bool b)]
  | .int n =>
    if n.natAbs < Nat.pow 2 hexadecimalBits then .dict [("int", .str (toString n))]
    else .dict [("inthex", .str (hexadecimalText n))]
  | .float x => .dict [("float", .str x.text)]
  | .str s => .dict [("str", .str s)]

/-- An integer in a base, with a sign in front. -/
def signedNumeral (base : Nat) (digit? : Char → Option Nat) : List Char → Int
  | '-' :: r => -(Text.numeral base (r.filterMap digit?) : Int)
  | r => Text.numeral base (r.filterMap digit?)

/-- A value with its kind; anything else is no value. -/
def Value.ofJson (j : Json) : Value :=
  match j.pairs with
  | [(kind, .bool b)] => if kind = "bool" then .bool b else .none
  | [(kind, .str s)] =>
    if kind = "int" then .int (signedNumeral 10 Text.digitValue? s.seen)
    else if kind = "inthex" then .int (signedNumeral 16 Text.hexValue? (s.seen.filter (· != 'x')))
    else if kind = "float" then .float ((Binary64.ofText? s.seen).getD .nan)
    else if kind = "str" then .str s
    else .none
  | _ => .none

/-- A JSON value in which everything but the keys of dictionaries has its kind. -/
def Json.typed : Json → Json
  | .null => .null
  | .bool b => Value.toJson (.bool b)
  | .int n => Value.toJson (.int n)
  | .float x => Value.toJson (.float x)
  | .str s => Value.toJson (.str s)
  | .list xs => .list (items xs)
  | .dict es => .dict [("dict", .list (entries es))]
where
  items : List Json → List Json
    | [] => []
    | x :: xs => typed x :: items xs
  entries : List (Text × Json) → List Json
    | [] => []
    | (k, v) :: es => .list [.str k, typed v] :: entries es

/-- The value that a JSON value is; lists and dictionaries count as their text. -/
def Json.toValue : Json → Value
  | .null => .none
  | .bool b => .bool b
  | .int n => .int n
  | .float x => .float x
  | .str s => .str s
  | j => .str j.text

/-- The plain JSON value without its kind. -/
def Value.plain : Value → Json
  | .none => .null
  | .bool b => .bool b
  | .int n => .int n
  | .float x => .float x
  | .str s => .str s

end TacBench
