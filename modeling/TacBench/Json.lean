import TacBench.Dictionary
import TacBench.Number.Decimal
import TacBench.Text.Quoted

/-! JSON values, with integers kept apart from other numbers, and the text by which messages show
them. -/
namespace TacBench

inductive Json where
  | null
  | bool (b : Bool)
  | int (n : Int)
  | float (x : Binary64)
  | str (s : Text)
  | list (items : List Json)
  | dict (entries : List (Text × Json))
  deriving Repr, Inhabited

namespace Json

/-- The name of a value's kind in messages. -/
def kindName : Json → String
  | .null => "NoneType"
  | .bool _ => "bool"
  | .int _ => "int"
  | .float _ => "float"
  | .str _ => "str"
  | .list _ => "list"
  | .dict _ => "dict"

/-- Whether a value counts as given: null, false, zero and whatever is empty do not. -/
def holds : Json → Bool
  | .null => false
  | .bool b => b
  | .int n => n != 0
  | .float x => !x.isZero
  | .str s => !s.isEmpty
  | .list xs => !xs.isEmpty
  | .dict es => !es.isEmpty

/-- The text of a value inside another one: texts are quoted. -/
def inner : Json → String
  | .null => "None"
  | .bool b => if b then "True" else "False"
  | .int n => toString n
  | .float x => x.text
  | .str s => Text.quoted s
  | .list xs => "[" ++ String.intercalate ", " (items xs) ++ "]"
  | .dict es => "\x7b" ++ String.intercalate ", " (entries es) ++ "\x7d"
where
  items : List Json → List String
    | [] => []
    | x :: xs => inner x :: items xs
  entries : List (Text × Json) → List String
    | [] => []
    | (k, v) :: es => (Text.quoted k ++ ": " ++ inner v) :: entries es

/-- The text of a value on its own. -/
def text : Json → Text
  | .str s => s
  | j => j.inner

/-- A list of texts. -/
def strings (ss : List String) : Json := .list (ss.map fun (s : String) => .str s)

/-- The entry of a dictionary, or null. -/
def field (entries : List (Text × Json)) (key : Text) : Json :=
  (Dictionary.find? entries key).getD .null

/-- The text that a value is, in characters, or another one. -/
def textOr (other : String) : Json → String
  | .str s => s.shown
  | _ => other

def text? : Json → Option Text
  | .str s => some s
  | _ => none

/-- The integer that a value is, or another one; truth values count as zero and one. -/
def intOr (other : Int) : Json → Int
  | .int n => n
  | .bool b => if b then 1 else 0
  | _ => other

def isTrue : Json → Bool
  | .bool b => b
  | _ => false

/-- The items of a list; other values have none. -/
def elements : Json → List Json
  | .list xs => xs
  | _ => []

/-- The entries of a dictionary; other values have none. -/
def pairs : Json → List (Text × Json)
  | .dict es => es
  | _ => []

/-- Changes every text in a value, keys of dictionaries too. -/
def mapText (f : Text → Text) : Json → Json
  | .str s => .str (f s)
  | .list xs => .list (items xs)
  | .dict es => .dict (entries es)
  | j => j
where
  items : List Json → List Json
    | [] => []
    | x :: xs => mapText f x :: items xs
  entries : List (Text × Json) → List (Text × Json)
    | [] => []
    | (k, v) :: es => (f k, mapText f v) :: entries es

/-- A dictionary whose keys are known names. -/
def record (fields : List (String × Json)) : Json :=
  .dict (fields.map fun (k, v) => (Text.ofString k, v))

/-- The entries of a dictionary by name. -/
def fields (j : Json) : List (String × Json) := j.pairs.map fun (k, v) => (k.shown, v)

end Json
end TacBench
