import TacBench.Diff.Unified
import TacBench.Text.Lines

/-! Change marks of an edited text: which of its lines differ from the saved text, and which lines
have come or gone since the last snapshot. Line numbers count from the start of a hunk in the older
text. -/
namespace TacBench.Editor

open Diff

def textLines (s : String) : List String := (Text.keptLines id s.toList).map String.ofList

def firstLine (h : Hunk String) : Nat := shownStart h.aStart h.aLength

/-- Numbers of the elements that satisfy a test, counted from a first number. -/
def numbersOf {α : Type} (p : α → Bool) (first : Nat) (xs : List α) : List Nat :=
  ((xs.zipIdx first).filter fun e => p e.1).map (·.2)

/-- Lines that a hunk adds; removed lines do not count. -/
def modifiedIn (h : Hunk String) : List Nat :=
  numbersOf (· == .added) (firstLine h) ((h.lines.map (·.1)).filter (· != .removed))

/-- Marks in the course of pairing: a removed line and a later added one make a pair. -/
inductive PairMark where
  | kept
  | removed
  | added
  | paired
  deriving DecidableEq, Repr

def PairMark.ofMark : Mark → PairMark
  | .kept => .kept
  | .removed => .removed
  | .added => .added

/-- What follows the added line to which only pairs lead, and the number of those pairs. -/
def pairsThenAdded : List PairMark → Option (Nat × List PairMark)
  | .added :: r => some (0, r)
  | .paired :: r => (pairsThenAdded r).map fun (n, rest) => (n + 1, rest)
  | _ => none

/-- Makes a pair of the first removed line that is followed by pairs only and then an added one. -/
def pairOnce : List PairMark → Option (List PairMark)
  | [] => none
  | .removed :: r =>
    match pairsThenAdded r with
    | some (n, rest) => some (List.replicate (n + 1) .paired ++ rest)
    | none => (pairOnce r).map (.removed :: ·)
  | m :: r => (pairOnce r).map (m :: ·)

theorem pairsThenAdded_length {ms rest : List PairMark} {n : Nat}
    (h : pairsThenAdded ms = some (n, rest)) : ms.length = n + 1 + rest.length := by
  induction ms generalizing n rest with
  | nil => simp [pairsThenAdded] at h
  | cons m r ih =>
    cases m with
    | added => simp only [pairsThenAdded, Option.some.injEq, Prod.mk.injEq] at h; simp [← h.1,
        ← h.2]; omega
    | paired =>
      simp only [pairsThenAdded, Option.map_eq_some_iff, Prod.mk.injEq] at h
      obtain ⟨⟨k, s⟩, hk, rfl, rfl⟩ := h
      have := ih hk
      simp only [List.length_cons]
      omega
    | kept | removed => simp [pairsThenAdded] at h

theorem pairOnce_length {ms ns : List PairMark} (h : pairOnce ms = some ns) :
    ns.length + 1 = ms.length := by
  induction ms generalizing ns with
  | nil => simp [pairOnce] at h
  | cons m r ih =>
    have tail : ∀ {x : PairMark}, (pairOnce r).map (x :: ·) = some ns →
        ns.length + 1 = r.length + 1 := by
      intro x hx
      obtain ⟨s, hs, rfl⟩ := Option.map_eq_some_iff.1 hx
      have := ih hs
      simp only [List.length_cons]
      omega
    cases m with
    | removed =>
      simp only [pairOnce] at h
      split at h
      · rename_i n rest hp
        have := pairsThenAdded_length hp
        simp only [Option.some.injEq] at h
        simp only [← h, List.length_append, List.length_replicate, List.length_cons]
        omega
      · exact tail h
    | kept | added | paired => exact tail h

/-- Pairs removed with added lines as long as there are such pairs. -/
def pairAll (ms : List PairMark) : List PairMark :=
  match _h : pairOnce ms with
  | none => ms
  | some ns => pairAll ns
termination_by ms.length
decreasing_by
  have := pairOnce_length _h
  omega

/-- Lines of a hunk that have come and lines that have gone, pairs apart. -/
def movedIn (h : Hunk String) : List Nat × List Nat :=
  let marks := pairAll (h.lines.map fun l => .ofMark l.1)
  (numbersOf (· == .added) (firstLine h) marks, numbersOf (· == .removed) (firstLine h) marks)

/-- The saved text and the snapshot with which an edited text is compared. -/
structure ChangeMarks where
  saved : String := "\n"
  snapshot : String := "\n"
  deriving DecidableEq, Repr

inductive ChangeEvent where
  | saved (text : String)
  | added (lines : List Nat)
  | removed (lines : List Nat)
  deriving DecidableEq, Repr

namespace ChangeMarks

/-- Saving the same text again is no event. -/
def save (text : String) (c : ChangeMarks) : ChangeMarks × List ChangeEvent :=
  if c.saved = text then (c, []) else ({ c with saved := text }, [.saved text])

/-- Lines of a new text that differ from the saved one. -/
def modifiedLines (c : ChangeMarks) (new : String) : List Nat :=
  (hunks (textLines c.saved) (textLines new)).flatMap modifiedIn

/-- Lines that have come and gone between the snapshot and a new text. -/
def movedLines (c : ChangeMarks) (new : String) : List Nat × List Nat :=
  let moves := (hunks (textLines c.snapshot) (textLines new)).map movedIn
  (moves.flatMap (·.1), moves.flatMap (·.2))

def compare (new : String) (c : ChangeMarks) : List Nat × List ChangeEvent :=
  let (added, removed) := c.movedLines new
  (c.modifiedLines new,
    (if added.isEmpty then [] else [.added added]) ++ if removed.isEmpty then []
      else [.removed removed])

end ChangeMarks
end TacBench.Editor
