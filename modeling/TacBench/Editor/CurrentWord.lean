import TacBench.Text.Blank

/-! The word at the cursor. Words are parted by spaces, tabs and line feeds; closing brackets behind
the cursor do not belong to the word. Positions count from the end of the text when they are
negative. -/
namespace TacBench.Editor.CurrentWord

def separators : List Char := ['\t', '\n', ' ']

def position (s : List Char) (i : Int) : Nat :=
  if i < 0 then (i + s.length).toNat else i.toNat

/-- The text between two positions. -/
def slice (s : List Char) (start stop : Int) : List Char :=
  (s.take (position s stop)).drop (position s start)

def separatorPositions (s : List Char) : List Int :=
  (s.zipIdx.filter fun e => separators.contains e.1).map fun e => (e.2 : Int)

/-- The last separator before the cursor. -/
def lastBefore (cursor : Int) (positions : List Int) : Option Int :=
  (positions.filter (· < cursor)).getLast?

/-- The first separator that is not before the cursor. -/
def firstFrom (cursor : Int) (positions : List Int) : Option Int :=
  positions.find? (cursor ≤ ·)

/-- Where the word at the cursor begins and ends; at the start of the text there is none. -/
def borders? (s : List Char) (cursor : Int) : Option (Int × Int) :=
  if cursor = 0 then none
  else
    let positions := separatorPositions s
    let start := ((lastBefore cursor positions).map (· + 1)).getD 0
    let stop := (firstFrom cursor positions).getD s.length
    if (Text.strip (slice s start stop)).isEmpty || cursor = stop then some (start, stop)
    else some (start, stop - ((s.drop (position s cursor)).takeWhile (· = ')')).length)

/-- Characters that have a meaning in search patterns. -/
def special : List Char := "\t\n\r\x0b\x0c #$&()*+-.?[\\]^\x7b|\x7d~".toList

def escape (s : List Char) : List Char :=
  s.flatMap fun c => if special.contains c then ['\\', c] else [c]

/-- The word at the cursor, escaped for a search. A border one before the text leaves no word. -/
def word (s : List Char) (cursor : Int) : List Char :=
  match borders? s cursor with
  | some (start, stop) =>
    if start = -1 ∨ stop = -1 then [] else escape (Text.strip (slice s start stop))
  | none => []

end TacBench.Editor.CurrentWord
