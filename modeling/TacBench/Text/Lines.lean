import TacBench.Text

/-! Lines of a text. A carriage return directly before a line feed counts with it as one break.
A break at the end of the text opens no further line. -/
namespace TacBench.Text

def isLineBreak (c : Char) : Bool :=
  let n := c.toNat
  (10 ≤ n && n ≤ 13) || (28 ≤ n && n ≤ 30) || n == 0x85 || n == 0x2028 || n == 0x2029

/-- A line whose first element is `c`, before the lines that follow. -/
def putFirst {α : Type} (c : α) : List (List α × List α) → List (List α × List α)
  | [] => [([c], [])]
  | (line, stop) :: rest => (c :: line, stop) :: rest

/-- Each line beside the break that ends it; the last break may be empty. Elements are characters or
show as such. -/
def brokenLines {α : Type} (seen : α → Char) : List α → List (List α × List α)
  | [] => []
  | [c] => if isLineBreak (seen c) then [([], [c])] else [([c], [])]
  | c :: d :: r =>
    if seen c = '\r' ∧ seen d = '\n' then ([], [c, d]) :: brokenLines seen r
    else if isLineBreak (seen c) then ([], [c]) :: brokenLines seen (d :: r)
    else putFirst c (brokenLines seen (d :: r))

def lines (s : List Char) : List (List Char) := (brokenLines id s).map (·.1)

/-- The lines of a text with any code points. -/
def pointLines (s : Text) : List Text := (brokenLines CodePoint.seen s).map (·.1)

/-- The lines with their breaks: they concatenate to the text. -/
def keptLines {α : Type} (seen : α → Char) (s : List α) : List (List α) :=
  (brokenLines seen s).map fun l => l.1 ++ l.2

theorem flatten_putFirst {α : Type} (c : α) (ls : List (List α × List α)) :
    ((putFirst c ls).map fun l => l.1 ++ l.2).flatten = c ::
      (ls.map fun l => l.1 ++ l.2).flatten := by
  cases ls <;> simp [putFirst]

theorem keptLines_flatten {α : Type} (seen : α → Char) (s : List α) :
    (keptLines seen s).flatten = s := by
  unfold keptLines
  fun_induction brokenLines seen s with
  | case1 => rfl
  | case2 c h => simp
  | case3 c h => simp
  | case4 c d r h ih => simpa using ih
  | case5 c d r h _ ih => simpa using ih
  | case6 c d r h _ ih => rw [flatten_putFirst, ih]

/-- Every break of a text file becomes a line feed. -/
def unifyBreaks : List Char → List Char
  | [] => []
  | '\r' :: '\n' :: r => '\n' :: unifyBreaks r
  | c :: r => (if c = '\r' then '\n' else c) :: unifyBreaks r

/-- The text before the first line feed with that line feed, and what follows. -/
def takeLine : List Char → List Char × List Char
  | [] => ([], [])
  | c :: r => if c = '\n' then ([c], r) else
    let (line, rest) := takeLine r
    (c :: line, rest)

end TacBench.Text
