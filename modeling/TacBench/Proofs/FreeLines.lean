import Mathlib.Data.Finset.Card
import TacBench.Proofs.AddedLines
import TacBench.Proofs.RemovedLines

/-! Breakpoints and lines that are inserted, given by the numbers that they have afterwards. The
lines that are not inserted are free: line `x` of the old text is the free line with as many free
lines before it as `x` has lines. Inserting the lines one after another in ascending order takes
every breakpoint to just that line. -/
namespace TacBench.Editor

namespace Breakpoints

variable {added : List Int} {x y : Int}

/-- The line of the old text that is at a free line: its number less the lines inserted before
it. -/
def oldLine (added : List Int) (y : Int) : Int := y - countBefore added y

/-- Where a breakpoint stands after all lines have come. -/
def landing (added : List Int) (x : Int) : Int := added.foldl pushed x

theorem landing_cons (a : Int) (added : List Int) (x : Int) :
    landing (a :: added) x = landing added (pushed x a) := rfl

theorem pushed_lt (a : Int) (before : x < y) : pushed x a < pushed y a := by
  unfold pushed
  split <;> split <;> omega

theorem landing_lt (added : List Int) (before : x < y) : landing added x < landing added y := by
  induction added generalizing x y with
  | nil => exact before
  | cons a added ih => exact ih (pushed_lt a before)

theorem landing_of_front (behind : ∀ a ∈ added, x < a) : landing added x = x := by
  induction added with
  | nil => rfl
  | cons a added ih =>
    have still : pushed x a = x := if_pos (behind a List.mem_cons_self)
    rw [landing_cons, still]
    exact ih fun b later => behind b (List.mem_cons_of_mem a later)

/-- A breakpoint comes to a free line, which is its line of the old text. -/
theorem landing_free (ascending : added.Pairwise (· < ·)) (x : Int) :
    landing added x ∉ added ∧ oldLine added (landing added x) = x := by
  induction added generalizing x with
  | nil => simp [landing, oldLine, countBefore]
  | cons a added ih =>
    obtain ⟨behind, ascending⟩ := List.pairwise_cons.mp ascending
    rcases Int.lt_or_le x a with front | after
    · have all : ∀ b ∈ a :: added, x < b :=
        List.forall_mem_cons.mpr ⟨front, fun b later => Int.lt_trans front (behind b later)⟩
      rw [landing_of_front all, oldLine, countBefore_eq_zero fun b member =>
        Int.le_of_lt (all b member)]
      exact ⟨fun member => Int.lt_irrefl x (all x member), Int.sub_zero x⟩
    · -- The breakpoint is pushed behind `a` and stays there.
      obtain ⟨free, old⟩ := ih ascending (x + 1)
      have next : pushed x a = x + 1 := if_neg (Int.not_lt.mpr after)
      rw [landing_cons, next]
      rw [oldLine] at old
      have passed : a < landing added (x + 1) := by omega
      refine ⟨List.not_mem_cons_of_ne_of_not_mem (Int.ne_of_gt passed) free, ?_⟩
      rw [oldLine, countBefore_cons, if_pos passed]
      omega

/-- Every free line is where the breakpoint of its line of the old text comes. -/
theorem landing_oldLine (ascending : added.Pairwise (· < ·)) (free : y ∉ added) :
    landing added (oldLine added y) = y := by
  induction added with
  | nil => simp [landing, oldLine, countBefore]
  | cons a added ih =>
    obtain ⟨behind, ascending⟩ := List.pairwise_cons.mp ascending
    obtain ⟨other, free⟩ := List.ne_and_not_mem_of_not_mem_cons free
    rcases Int.lt_or_gt_of_ne other with front | after
    · have all : ∀ b ∈ a :: added, y < b :=
        List.forall_mem_cons.mpr ⟨front, fun b later => Int.lt_trans front (behind b later)⟩
      rw [oldLine, countBefore_eq_zero fun b member => Int.le_of_lt (all b member)]
      rw [Int.ofNat_zero, Int.sub_zero]
      exact landing_of_front all
    · have room := countBefore_le ascending behind after
      have rest := ih ascending free
      rw [oldLine] at rest
      rw [oldLine, countBefore_cons, if_pos after, landing_cons, pushed, if_neg (by omega)]
      have same : y - ((countBefore added y + 1 : Nat) : Int) + 1 =
          y - countBefore added y := by omega
      rw [same, rest]

theorem landing_eq_iff (ascending : added.Pairwise (· < ·)) :
    landing added x = y ↔ y ∉ added ∧ oldLine added y = x := by
  constructor
  · rintro rfl
    exact landing_free ascending x
  · rintro ⟨free, rfl⟩
    exact landing_oldLine ascending free

end Breakpoints

namespace DebugPanel

open Breakpoints

/-- Inserted lines with ascending numbers take each breakpoint `x` to the one free line that becomes
`x` when the lines inserted before it are taken away. The breakpoints are then on exactly the lines
to which the old ones come, no two of them on the same one and all in their old order, and each free
line has a line of the old text. -/
theorem insertion_onto_free_lines (p : DebugPanel) {added : List Int}
    (ascending : added.Pairwise (· < ·)) :
    p.linesAdded added = p.withBreakpoints (p.session.breakpoints.map (landing added)) ∧
    (∀ x y, landing added x = y ↔ y ∉ added ∧ y - countBefore added y = x) ∧
    (p.linesAdded added).2.2.session.breakpoints.toFinset =
      p.session.breakpoints.toFinset.image (landing added) ∧
    (∀ y, y ∈ (p.linesAdded added).2.2.session.breakpoints ↔
      y ∉ added ∧ y - countBefore added y ∈ p.session.breakpoints) ∧
    (p.linesAdded added).2.2.session.breakpoints.toFinset.card =
      p.session.breakpoints.toFinset.card ∧
    (∀ x y, x < y → landing added x < landing added y) ∧
    Set.range (landing added) = {y | y ∉ added} := by
  have goes : p.linesAdded added = p.withBreakpoints
      (p.session.breakpoints.map (landing added)) := by
    rw [linesAdded, afterAdded_eq]
    rfl
  have image : (p.linesAdded added).2.2.session.breakpoints.toFinset =
      p.session.breakpoints.toFinset.image (landing added) := by
    rw [goes]
    exact Finset.ext fun y => by simp [withBreakpoints]
  refine ⟨goes, fun x y => landing_eq_iff ascending, image, fun y => ?_, ?_,
    fun x y => landing_lt added, ?_⟩
  · have member : y ∈ (p.linesAdded added).2.2.session.breakpoints ↔
        ∃ x ∈ p.session.breakpoints, landing added x = y := by
      rw [goes]
      exact List.mem_map
    simp only [member, landing_eq_iff ascending]
    constructor
    · rintro ⟨x, old, free, rfl⟩
      exact ⟨free, old⟩
    · rintro ⟨free, old⟩
      exact ⟨_, old, free, rfl⟩
  · have injective : Function.Injective (landing added) :=
      Function.LeftInverse.injective fun x => (landing_free ascending x).2
    rw [image, Finset.card_image_of_injective _ injective]
  · ext y
    simp only [Set.mem_range, Set.mem_ofPred_eq, landing_eq_iff ascending]
    constructor
    · rintro ⟨x, free, -⟩
      exact free
    · intro free
      exact ⟨_, free, rfl⟩

/-- Three lines are inserted, two of them together. -/
theorem threeBreakpoints_pushed :
    [2, 3, 9].Pairwise (· < · : Int → Int → Prop) ∧
    (threeBreakpoints.linesAdded [2, 3, 9]).2.2.session.breakpoints = [1, 10, 11] := by
  have ascending : [2, 3, 9].Pairwise (· < · : Int → Int → Prop) := by decide
  refine ⟨ascending, ?_⟩
  rw [(insertion_onto_free_lines threeBreakpoints ascending).1]
  decide

end DebugPanel
end TacBench.Editor
