import TacBench.Json

/-! An outline of named items, each with a value, a kind and items below it. An item is looked up by
the names on the way to it: on each level all items of the name are searched for in the whole
outline, the last of those that stand below the item before is taken, and one is put there if there
is none. How the whole outline is searched is left to a finder. -/
namespace TacBench.Editor

structure Item where
  name : String
  value : Json := .str []
  kind : Json := .str []
  items : List Item := []

abbrev Outline := List Item

/-- Where an item stands: its row, and the rows of the items above it from the top. -/
structure Spot where
  parent : List Nat
  row : Nat
  deriving DecidableEq, Repr

/-- The rows that lead to what is below an item. -/
def Spot.rows (s : Spot) : List Nat := s.parent ++ [s.row]

/-- Finds the items of a name in a whole outline. -/
abbrev Finder := String → Outline → List Spot

namespace Outline

/-- The items to which rows lead. -/
def below : List Nat → Outline → Outline
  | [], o => o
  | row :: rows, o => (o[row]?).elim [] fun i => below rows i.items

/-- Changes the items to which rows lead. -/
def changeBelow (f : Outline → Outline) : List Nat → Outline → Outline
  | [], o => f o
  | row :: rows, o => o.modify row fun i => { i with items := changeBelow f rows i.items }

def itemAt? (s : Spot) (o : Outline) : Option Item := (o.below s.parent)[s.row]?

def changeAt (f : Item → Item) (s : Spot) (o : Outline) : Outline :=
  o.changeBelow (·.modify s.row f) s.parent

/-- Removes an item with everything below it. -/
def removeAt (s : Spot) (o : Outline) : Outline := o.changeBelow (·.eraseIdx s.row) s.parent

/-- The item of a name to which rows lead. If there are several it is the one found last; if there
is none it is put behind its neighbours. -/
def child (find : Finder) (parent : List Nat) (name : String) (o : Outline) : Spot × Outline :=
  match ((find name o).filter (·.parent = parent)).getLast? with
  | some spot => (spot, o)
  | none => (⟨parent, (o.below parent).length⟩, o.changeBelow (· ++ [{ name }]) parent)

def descend (find : Finder) (parent : List Nat) : List String → String → Outline → Spot × Outline
  | [], name, o => o.child find parent name
  | first :: path, name, o =>
    let (spot, o) := o.child find parent first
    descend find spot.rows path name o

/-- The item at the end of a path of names. Items that are missing on the way are made. -/
def getItem (find : Finder) (path : List String) (name : String) (o : Outline) : Spot × Outline :=
  descend find [] path name o

def set (find : Finder) (path : List String) (name : String) (value kind : Json) (o : Outline) :
    Outline :=
  let (spot, o) := o.getItem find path name
  o.changeAt ({ · with value, kind }) spot

/-- Removes everything below an item. -/
def clearBelow (find : Finder) (path : List String) (name : String) (o : Outline) : Outline :=
  let (spot, o) := o.getItem find path name
  o.changeBelow (fun _ => []) spot.rows

/-- Removes an item, which is made for that if it is missing. -/
def remove (find : Finder) (path : List String) (name : String) (o : Outline) : Outline :=
  let (spot, o) := o.getItem find path name
  o.removeAt spot

/-- The items as lists of a name, a value, a kind and the items below. -/
def toJson (o : Outline) : Json := .list (rows o)
where
  rows : List Item → List Json
    | [] => []
    | ⟨name, value, kind, items⟩ :: rest =>
      .list [.str name, value, kind, .list (rows items)] :: rows rest

/-- Columns by the number under which a view asks for them. -/
def columns : List (Nat × String) := [(0, "name_col"), (256, "value_col"), (257, "type_col")]

end Outline

namespace Spot

/-- The spot of an item below the first of a list, seen from that list. -/
def underFirst (s : Spot) : Spot := { s with parent := 0 :: s.parent }

/-- The spot after an item has been put before all others. -/
def afterFirst : Spot → Spot
  | ⟨[], row⟩ => ⟨[], row + 1⟩
  | ⟨first :: parent, row⟩ => ⟨(first + 1) :: parent, row⟩

end Spot

namespace Finder

mutual

/-- The items of a name among an item and those below it, seen from a list in which it is the
first. -/
def fromItem (name : String) : Item → List Spot
  | ⟨own, _, _, items⟩ => (if own = name then [⟨[], 0⟩] else []) ++
      (depthFirst name items).map Spot.underFirst

/-- All items of a name, each before those below it. -/
def depthFirst (name : String) : List Item → List Spot
  | [] => []
  | i :: rest => fromItem name i ++ (depthFirst name rest).map Spot.afterFirst

end

end Finder
end TacBench.Editor
