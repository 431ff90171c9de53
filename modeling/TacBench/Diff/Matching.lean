/-! Matching blocks of two sequences of lines: the longest run of equal lines is taken first, of
several the one that begins earliest, and then the lines before and after it are matched in the same
way. In a second sequence of 200 lines or more, lines that occur often do not start a match. -/
namespace TacBench.Diff

variable {α : Type} [DecidableEq α]

/-- Equal lines: `size` of them from `a` in the first and `b` in the second sequence. -/
structure Block where
  a : Nat
  b : Nat
  size : Nat
  deriving DecidableEq, Repr, Inhabited

/-- Sequences from this length on have popular lines. -/
def popularFrom : Nat := 200

def isPopular (b : Array α) (line : α) : Bool :=
  popularFrom ≤ b.size && b.size / 100 + 1 < b.count line

/-- For each line of the first sequence the positions in the second at which a match may start. -/
def anchors (a b : Array α) : Array (List Nat) :=
  let indexed := b.toList.zipIdx
  a.map fun line =>
    let hits := (indexed.filter fun e => e.1 == line).map (·.2)
    if isPopular b line then [] else hits

/-- Part of both sequences. -/
structure Range where
  aLow : Nat
  aHigh : Nat
  bLow : Nat
  bHigh : Nat
  deriving Repr

/-- Lengths of the matches that end at a line, by position in the second sequence. -/
abbrev Row := List (Nat × Nat)

/-- The matches that end at line `i`, and the best block if one of them is longer. -/
def extendRow (r : Range) (i : Nat) (hits : List Nat) (row : Row) (best : Block) : Row × Block :=
  let hits := hits.filter fun j => r.bLow ≤ j && j < r.bHigh
  let (row', best) := hits.foldl (fun (acc : Row × Block) j =>
    let before := if j = 0 then 0 else (row.lookup (j - 1)).getD 0
    let k := before + 1
    ((j, k) :: acc.1, if acc.2.size < k then ⟨i + 1 - k, j + 1 - k, k⟩ else acc.2)) ([], best)
  (row'.reverse, best)

/-- Grows a block backwards over equal lines. -/
def growBack (a b : Array α) (r : Range) : Nat → Block → Block
  | 0, m => m
  | fuel + 1, m =>
    if r.aLow < m.a ∧ r.bLow < m.b ∧ a[m.a - 1]? = b[m.b - 1]? then
      growBack a b r fuel ⟨m.a - 1, m.b - 1, m.size + 1⟩
    else m

/-- Grows a block forwards over equal lines. -/
def growOn (a b : Array α) (r : Range) : Nat → Block → Block
  | 0, m => m
  | fuel + 1, m =>
    if m.a + m.size < r.aHigh ∧ m.b + m.size < r.bHigh ∧ a[m.a + m.size]? = b[m.b + m.size]? then
      growOn a b r fuel { m with size := m.size + 1 }
    else m

/-- The longest block within a range. -/
def longest (a b : Array α) (starts : Array (List Nat)) (r : Range) : Block :=
  let lines := List.range' r.aLow (r.aHigh - r.aLow)
  let (_, best) := lines.foldl (fun (acc : Row × Block) i =>
    extendRow r i (starts[i]?.getD []) acc.1 acc.2) ([], ⟨r.aLow, r.bLow, 0⟩)
  growOn a b r (r.aHigh - r.aLow) (growBack a b r (r.aHigh - r.aLow) best)

/-- The blocks within a range, in order. Each part is shorter than the range, so the length of the
first sequence suffices as fuel. -/
def blocksIn (a b : Array α) (starts : Array (List Nat)) : Nat → Range → List Block
  | 0, _ => []
  | fuel + 1, r =>
    let m := longest a b starts r
    if m.size = 0 then []
    else
      let before := if r.aLow < m.a ∧ r.bLow < m.b then
        blocksIn a b starts fuel ⟨r.aLow, m.a, r.bLow, m.b⟩ else []
      let after := if m.a + m.size < r.aHigh ∧ m.b + m.size < r.bHigh then
        blocksIn a b starts fuel ⟨m.a + m.size, r.aHigh, m.b + m.size, r.bHigh⟩ else []
      before ++ m :: after

/-- Joins blocks that follow each other directly in both sequences. -/
def joinBlocks : List Block → List Block
  | [] => []
  | m :: ms =>
    match joinBlocks ms with
    | [] => [m]
    | n :: ns =>
      if m.a + m.size = n.a ∧ m.b + m.size = n.b then ⟨m.a, m.b, m.size + n.size⟩ :: ns
      else m :: n :: ns

def matching (a b : Array α) : List Block :=
  joinBlocks (blocksIn a b (anchors a b) (a.size + 1) ⟨0, a.size, 0, b.size⟩)

end TacBench.Diff
