import TacBench.Diff.Matching
import TacBench.Text

/-! Unified differences of two sequences of lines, with three lines of context. -/
namespace TacBench.Diff

variable {α : Type} [DecidableEq α]

/-- A stretch of both sequences that is equal in both or differs. -/
structure Stretch where
  equal : Bool
  a₁ : Nat
  a₂ : Nat
  b₁ : Nat
  b₂ : Nat
  deriving DecidableEq, Repr, Inhabited

/-- The stretches from a pair of positions on, along the matching blocks; the last block is empty
and stands at the end. -/
def stretchesFrom (i j : Nat) : List Block → List Stretch
  | [] => []
  | m :: ms =>
    let gap := if i < m.a ∨ j < m.b then [⟨false, i, m.a, j, m.b⟩] else []
    let same := if m.size = 0 then [] else [⟨true, m.a, m.a + m.size, m.b, m.b + m.size⟩]
    gap ++ same ++ stretchesFrom (m.a + m.size) (m.b + m.size) ms

def stretches (a b : Array α) : List Stretch :=
  stretchesFrom 0 0 (matching a b ++ [⟨a.size, b.size, 0⟩])

/-- Lines of context around a difference. -/
def context : Nat := 3

/-- Keeps the end of an equal stretch. -/
def Stretch.tail (s : Stretch) : Stretch :=
  { s with a₁ := max s.a₁ (s.a₂ - context), b₁ := max s.b₁ (s.b₂ - context) }

/-- Keeps the beginning of an equal stretch. -/
def Stretch.head (s : Stretch) : Stretch :=
  { s with a₂ := min s.a₂ (s.a₁ + context), b₂ := min s.b₂ (s.b₁ + context) }

/-- Cuts the equal stretches at both ends down to the context. -/
def trimEnds (ss : List Stretch) : List Stretch :=
  let ss := match ss with
    | s :: r => (if s.equal then s.tail else s) :: r
    | [] => []
  match ss.reverse with
  | s :: r => ((if s.equal then s.head else s) :: r).reverse
  | [] => []

/-- Groups of stretches that lie apart by more than twice the context. The first argument is the
group that is being collected, in reverse. -/
def groupsFrom (group : List Stretch) : List Stretch → List (List Stretch)
  | [] =>
    match group with
    | [] => []
    | [s] => if s.equal then [] else [[s]]
    | g => [g.reverse]
  | s :: r =>
    if s.equal && 2 * context < s.a₂ - s.a₁ then
      (s.head :: group).reverse :: groupsFrom [s.tail] r
    else groupsFrom (s :: group) r

def groups (ss : List Stretch) : List (List Stretch) := groupsFrom [] (trimEnds ss)

/-- What becomes of a line. -/
inductive Mark where
  | kept
  | removed
  | added
  deriving DecidableEq, Repr

def Mark.char : Mark → Char
  | .kept => ' '
  | .removed => '-'
  | .added => '+'

/-- The lines of a group, each with its mark; removed ones come before added ones. -/
structure Hunk (α : Type) where
  aStart : Nat
  aLength : Nat
  bStart : Nat
  bLength : Nat
  lines : List (Mark × α)
  deriving DecidableEq, Repr

def slice (xs : Array α) (i j : Nat) : List α := (xs.toList.take j).drop i

def Stretch.lines (a b : Array α) (s : Stretch) : List (Mark × α) :=
  if s.equal then (slice a s.a₁ s.a₂).map (.kept, ·)
  else (slice a s.a₁ s.a₂).map (.removed, ·) ++ (slice b s.b₁ s.b₂).map (.added, ·)

def Hunk.ofGroup (a b : Array α) : List Stretch → Option (Hunk α)
  | [] => none
  | s :: r =>
    let last := (s :: r).getLast (by simp)
    some ⟨s.a₁, last.a₂ - s.a₁, s.b₁, last.b₂ - s.b₁, (s :: r).flatMap (Stretch.lines a b)⟩

/-- The hunks between two sequences of lines. -/
def hunks (a b : List α) : List (Hunk α) :=
  let a := a.toArray
  let b := b.toArray
  (groups (stretches a b)).filterMap (Hunk.ofGroup a b)

/-- The line number at which a range begins: the line before it if it is empty. -/
def shownStart (start length : Nat) : Nat := if length = 0 then start else start + 1

def shownRange (start length : Nat) : String :=
  let s := shownStart start length
  if length = 1 then toString s else s!"{s},{length}"

def Hunk.header (h : Hunk α) : String :=
  let a := shownRange h.aStart h.aLength
  let b := shownRange h.bStart h.bLength
  s!"@@ -{a} +{b} @@\n"

def Hunk.text (h : Hunk Text) : List Text :=
  h.header :: h.lines.map fun l => .char l.1.char :: l.2

/-- The lines of a unified difference; equal sequences have none. -/
def unified (aName bName : Text) (a b : List Text) : List Text :=
  match hunks a b with
  | [] => []
  | hs => ("--- " ++ aName ++ "\n") :: ("+++ " ++ bName ++ "\n") :: hs.flatMap Hunk.text

end TacBench.Diff
