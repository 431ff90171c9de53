/-! Breakpoints are line numbers that follow the text: a line that comes pushes those at or behind
it down, a line that goes takes its own with it and pulls those behind it up. -/
namespace TacBench.Editor.Breakpoints

def toggle (line : Int) (bs : List Int) : List Int :=
  if line ∈ bs then bs.filter (· ≠ line) else bs ++ [line]

def afterAddedLine (bs : List Int) (line : Int) : List Int :=
  bs.map fun x => if x < line then x else x + 1

def afterRemovedLine (bs : List Int) (line : Int) : List Int :=
  (bs.filter (· ≠ line)).map fun x => if x < line then x else x - 1

/-- The lines come one after another. -/
def afterAdded (lines bs : List Int) : List Int := lines.foldl afterAddedLine bs

/-- The lines go one after another, each with the number it has by then. -/
def afterRemoved (lines bs : List Int) : List Int := lines.foldl afterRemovedLine bs

end TacBench.Editor.Breakpoints
