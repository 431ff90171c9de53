import TacBench.Number.Decimal
import TacBench.Text

/-! Values of the language: truth values, integers without bound, binary64 numbers and texts, with
`none` for a variable that has been declared and not yet assigned. -/
namespace TacBench

inductive Value where
  | none
  | bool (b : Bool)
  | int (n : Int)
  | float (x : Binary64)
  | str (s : Text)
  deriving DecidableEq, Repr, Inhabited

/-- Kinds of values. -/
inductive Kind where
  | none
  | bool
  | int
  | float
  | str
  deriving DecidableEq, Repr, Inhabited

/-- The name of a kind, as messages and the type query show it. -/
def Kind.name : Kind → String
  | .none => "NoneType"
  | .bool => "bool"
  | .int => "int"
  | .float => "float"
  | .str => "str"

namespace Value

def kind : Value → Kind
  | .none => .none
  | .bool _ => .bool
  | .int _ => .int
  | .float _ => .float
  | .str _ => .str

/-- Zero, the empty text and the missing value do not hold. -/
def holds : Value → Bool
  | .none => false
  | .bool b => b
  | .int n => n != 0
  | .float x => !x.isZero
  | .str s => !s.isEmpty

/-- Truth values count as zero and one. -/
def integer? : Value → Option Int
  | .bool b => some (if b then 1 else 0)
  | .int n => some n
  | _ => Option.none

/-- Place of a number on the extended line. -/
def place? (v : Value) : Option (Int × Int) :=
  match v with
  | .float x => x.place?
  | _ => v.integer?.map Binary64.placeOfInt

def isNumber : Value → Bool
  | .bool _ | .int _ | .float _ => true
  | _ => false

/-- Equality of the language: numbers by their exact value, whatever their kind, texts by their code
points; a number that is no number equals nothing. -/
def same : Value → Value → Bool
  | .none, .none => true
  | .str a, .str b => a == b
  | a, b => match a.place?, b.place? with
    | some p, some q => p == q
    | _, _ => false

end Value
end TacBench
