import TacBench.Editor.ChangeMarks
import TacBench.Editor.DebugPanel

/-! What becomes of breakpoints when several lines are removed at once. The numbers of the removed
lines all count in the old text, but each of them is looked up in the text from which those before
it have gone already. Given in ascending order they therefore hit lines further down; given from the
last to the first they would hit the lines that are meant. -/
namespace TacBench.Editor

namespace Breakpoints

variable {removed bs : List Int} {r x : Int}

def countBefore (removed : List Int) (x : Int) : Nat := removed.countP (· < x)

/-- The breakpoints that stay on their lines of text while those on removed lines disappear. -/
def following (removed bs : List Int) : List Int :=
  (bs.filter (· ∉ removed)).map fun x => x - countBefore removed x

/-- The lines of the old text that go when each number counts in the text that the numbers before it
have left. -/
def effective (removed : List Int) : List Int := removed.zipIdx.map fun (r, i) => r + i

/-- One breakpoint when one line goes. -/
def moved (x r : Int) : Option Int := if x = r then none else some (if x < r then x else x - 1)

theorem moved_self (r : Int) : moved r r = none := if_pos rfl

theorem moved_of_lt (front : x < r) : moved x r = some x := by
  rw [moved, if_neg (Int.ne_of_lt front), if_pos front]

theorem moved_of_gt (after : r < x) : moved x r = some (x - 1) := by
  rw [moved, if_neg (Int.ne_of_gt after), if_neg (Int.lt_asymm after)]

theorem afterRemovedLine_eq (bs : List Int) (r : Int) :
    afterRemovedLine bs r = bs.filterMap (moved · r) := by
  unfold afterRemovedLine
  induction bs with
  | nil => rfl
  | cons x bs ih =>
    by_cases same : x = r
    · simpa [moved, same] using ih
    · simpa [moved, same] using ih

-- Breakpoints do not meet on their way, so that each can be followed by itself.
theorem afterRemoved_eq (removed bs : List Int) :
    afterRemoved removed bs = bs.filterMap (removed.foldlM moved) := by
  unfold afterRemoved
  induction removed generalizing bs with
  | nil =>
    simp only [List.foldl_nil, List.foldlM_nil]
    exact List.filterMap_some.symm
  | cons r rest ih =>
    simp only [List.foldl_cons, ih, afterRemovedLine_eq, List.filterMap_filterMap, List.foldlM_cons]
    rfl

theorem following_eq (removed bs : List Int) :
    following removed bs = bs.filterMap fun x =>
      if x ∈ removed then none else some (x - countBefore removed x) := by
  unfold following
  induction bs with
  | nil => rfl
  | cons x bs ih =>
    by_cases gone : x ∈ removed
    · simpa [gone] using ih
    · simpa [gone] using ih

theorem countBefore_eq_zero (behind : ∀ r ∈ removed, x ≤ r) : countBefore removed x = 0 := by
  refine List.countP_eq_zero.mpr fun r member => ?_
  have later := behind r member
  simp only [decide_eq_true_eq]
  omega

theorem countBefore_cons (removed : List Int) (r x : Int) :
    countBefore (r :: removed) x = countBefore removed x + if r < x then 1 else 0 := by
  simp only [countBefore, List.countP_cons, decide_eq_true_eq]

theorem countBefore_shifted (removed : List Int) (x : Int) :
    countBefore (removed.map (· + 1)) x = countBefore removed (x - 1) := by
  simp only [countBefore, List.countP_map]
  refine List.countP_congr fun r _ => ?_
  simp only [Function.comp_apply, decide_eq_true_eq]
  omega

theorem mem_shifted (removed : List Int) (x : Int) :
    x ∈ removed.map (· + 1) ↔ x - 1 ∈ removed := by
  constructor
  · intro member
    obtain ⟨r, earlier, rfl⟩ := List.mem_map.mp member
    rwa [Int.add_sub_cancel]
  · intro member
    exact List.mem_map.mpr ⟨x - 1, member, Int.sub_add_cancel x 1⟩

theorem effective_cons (r : Int) (rest : List Int) :
    effective (r :: rest) = r :: (effective rest).map (· + 1) := by
  simp only [effective, List.zipIdx_cons', List.map_cons, List.map_map]
  congr 1
  · omega
  · refine List.map_congr_left fun e _ => ?_
    simp only [Function.comp_apply, Prod.map, id]
    omega

theorem effective_behind (behind : ∀ r ∈ removed, x < r) : ∀ r ∈ effective removed, x < r := by
  intro s member
  obtain ⟨⟨r, i⟩, inside, rfl⟩ := List.mem_map.mp member
  have later := behind r (List.fst_mem_of_mem_zipIdx inside)
  dsimp only
  omega

theorem foldlM_moved_of_front (behind : ∀ r ∈ removed, x < r) :
    removed.foldlM moved x = some x := by
  induction removed with
  | nil => rfl
  | cons r rest ih =>
    rw [List.foldlM_cons, moved_of_lt (behind r List.mem_cons_self)]
    exact ih fun t inside => behind t (List.mem_cons_of_mem r inside)

theorem foldlM_moved (ascending : removed.Pairwise (· < ·)) (x : Int) :
    removed.foldlM moved x =
      if x ∈ effective removed then none else some (x - countBefore (effective removed) x) := by
  induction removed generalizing x with
  | nil => simp [effective, countBefore]
  | cons r rest ih =>
    obtain ⟨behind, ascending⟩ := List.pairwise_cons.mp ascending
    rcases Int.lt_trichotomy x r with front | rfl | after
    · have all : ∀ t ∈ r :: rest, x < t := by
        intro t member
        rcases List.mem_cons.mp member with rfl | later
        · exact front
        · exact Int.lt_trans front (behind t later)
      have further := effective_behind all
      have absent : x ∉ effective (r :: rest) := fun member => Int.lt_irrefl x (further x member)
      have uncounted := countBefore_eq_zero fun t member => Int.le_of_lt (further t member)
      rw [foldlM_moved_of_front all, if_neg absent, uncounted]
      simp
    · simp [effective_cons, List.foldlM_cons, moved_self]
    · -- the line moves up by one, and the numbers that are still to come mean lines further down
      have other : x ≠ r := Int.ne_of_gt after
      rw [effective_cons, List.foldlM_cons, moved_of_gt after]
      simp only [bind, Option.bind_some, ih ascending, List.mem_cons, mem_shifted, countBefore_cons,
        countBefore_shifted, other, false_or, if_pos after]
      split
      · rfl
      · congr 1
        omega

theorem afterRemoved_ascending (ascending : removed.Pairwise (· < ·)) (bs : List Int) :
    afterRemoved removed bs = following (effective removed) bs := by
  rw [afterRemoved_eq, following_eq, funext (foldlM_moved ascending)]

/-- Between two lines there are no more removed ones than there is room for. -/
theorem countBefore_le (ascending : removed.Pairwise (· < ·)) (behind : ∀ t ∈ removed, r < t)
    (after : r < x) : (countBefore removed x : Int) ≤ x - r - 1 := by
  induction removed generalizing r with
  | nil =>
    simp only [countBefore, List.countP_nil]
    omega
  | cons s rest ih =>
    obtain ⟨later, ascending⟩ := List.pairwise_cons.mp ascending
    have next : r < s := behind s List.mem_cons_self
    rw [countBefore_cons]
    by_cases inside : s < x
    · have room := ih ascending later inside
      rw [if_pos inside]
      omega
    · have uncounted : countBefore rest x = 0 := countBefore_eq_zero fun t member => by
        have := later t member
        omega
      rw [uncounted, if_neg inside]
      omega

theorem foldlM_moved_reverse (ascending : removed.Pairwise (· < ·)) (x : Int) :
    removed.reverse.foldlM moved x =
      if x ∈ removed then none else some (x - countBefore removed x) := by
  induction removed generalizing x with
  | nil => simp [countBefore]
  | cons r rest ih =>
    obtain ⟨behind, ascending⟩ := List.pairwise_cons.mp ascending
    rw [List.reverse_cons, List.foldlM_append, ih ascending, countBefore_cons]
    by_cases member : x ∈ rest
    · simp [member]
    · rcases Int.lt_or_le r x with after | front
      · -- the lines behind `r` that have gone leave the breakpoint behind `r`
        have room := countBefore_le ascending behind after
        have still : r < x - countBefore rest x := by omega
        have other : x ≠ r := Int.ne_of_gt after
        simp only [member, other, if_pos after, if_false, List.mem_cons, or_false, List.foldlM_cons,
          List.foldlM_nil, bind, Option.bind_some, moved_of_gt still, pure]
        congr 1
        omega
      · have uncounted : countBefore rest x = 0 := countBefore_eq_zero fun t inside => by
          have := behind t inside
          omega
        rcases Int.lt_or_eq_of_le front with front | rfl
        · simp [member, uncounted, Int.lt_asymm front, Int.ne_of_lt front, moved_of_lt front]
        · simp [member, uncounted, moved_self]

theorem afterRemoved_descending (ascending : removed.Pairwise (· < ·)) (bs : List Int) :
    afterRemoved removed.reverse bs = following removed bs := by
  rw [afterRemoved_eq, following_eq, funext (foldlM_moved_reverse ascending)]

/-- A line that does not lie between a removed line and the one that goes in its place. -/
def Clear (removed : List Int) (x : Int) : Prop :=
  ∀ r i, (r, i) ∈ removed.zipIdx → i ≠ 0 → x < r ∨ r + i < x

theorem Clear.mem_effective (clear : Clear removed x) : x ∈ effective removed ↔ x ∈ removed := by
  constructor
  · intro member
    obtain ⟨⟨r, i⟩, inside, rfl⟩ := List.mem_map.mp member
    by_cases first : i = 0
    · subst first
      simpa using List.fst_mem_of_mem_zipIdx inside
    · have apart := clear r i inside first
      dsimp only at apart
      omega
  · intro member
    obtain ⟨i, bound, rfl⟩ := List.getElem_of_mem member
    have inside : (removed[i], i) ∈ removed.zipIdx := by simp [List.mem_zipIdx_iff_getElem?, bound]
    by_cases first : i = 0
    · exact List.mem_map.mpr ⟨_, inside, by simp [first]⟩
    · have apart := clear _ i inside first
      omega

theorem Clear.countBefore_effective (clear : Clear removed x) :
    countBefore (effective removed) x = countBefore removed x := by
  have named : removed = removed.zipIdx.map (·.1) := by simp
  rw [countBefore, effective, List.countP_map, countBefore]
  conv => rhs; rw [named, List.countP_map]
  refine List.countP_congr fun e inside => ?_
  simp only [Function.comp_apply, decide_eq_true_eq]
  by_cases first : e.2 = 0
  · simp [first]
  · have apart := clear e.1 e.2 inside first
    omega

theorem following_of_clear (clear : ∀ x ∈ bs, Clear removed x) :
    following (effective removed) bs = following removed bs := by
  unfold following
  have kept : bs.filter (· ∉ effective removed) = bs.filter (· ∉ removed) :=
    List.filter_congr fun x member => by simp only [(clear x member).mem_effective]
  rw [kept]
  refine List.map_congr_left fun x member => ?_
  rw [(clear x (List.mem_filter.mp member).1).countBefore_effective]

end Breakpoints

namespace DebugPanel

open Breakpoints

/-- Removed lines in ascending order take the breakpoints of other lines with them: the `i`-th of
them that of the line `i` places further down. No harm is done as long as no breakpoint lies in
between, and none at all when the lines are named from the last to the first. -/
theorem removal_hits_lines_below (p : DebugPanel) {removed : List Int}
    (ascending : removed.Pairwise (· < ·)) :
    p.linesRemoved removed = p.withBreakpoints
    (following (effective removed) p.session.breakpoints) ∧
    ((∀ x ∈ p.session.breakpoints, Clear removed x) →
      p.linesRemoved removed = p.withBreakpoints (following removed p.session.breakpoints)) ∧
    p.linesRemoved removed.reverse = p.withBreakpoints
    (following removed p.session.breakpoints) := by
  have goes : p.linesRemoved removed =
      p.withBreakpoints (following (effective removed) p.session.breakpoints) := by
    rw [linesRemoved, afterRemoved_ascending ascending]
  refine ⟨goes, ?_, ?_⟩
  · intro clear
    rw [goes, following_of_clear clear]
  · rw [linesRemoved, afterRemoved_descending ascending]

/-- A panel with a breakpoint on the first, fourth, fifth and ninth line. -/
def fourBreakpoints : DebugPanel where
  session := { breakpoints := [1, 4, 5, 9] }

theorem fourBreakpoints_without_two_lines :
    [2, 3].Pairwise (· < · : Int → Int → Prop) ∧
    (fourBreakpoints.linesRemoved [2, 3]).2.2.session.breakpoints = [1, 3, 7] ∧
    (fourBreakpoints.linesRemoved [2, 3].reverse).2.2.session.breakpoints = [1, 2, 3, 7] := by
  have ascending : [2, 3].Pairwise (· < · : Int → Int → Prop) := by decide
  obtain ⟨down, -, up⟩ := removal_hits_lines_below fourBreakpoints ascending
  refine ⟨ascending, ?_, ?_⟩
  · rw [down]
    decide
  · rw [up]
    decide

/-- The two inner ones of four lines are deleted. They are reported in ascending order, and the
breakpoint on the last line, which becomes the second, is lost. -/
theorem deletion_loses_breakpoint :
    ({ snapshot := "a\nb\nc\nd\n" : ChangeMarks }.compare "a\nd\n").2 = [.removed [2, 3]] ∧
    following [2, 3] [4] = [2] ∧
    (linesRemoved [2, 3] { session := { breakpoints := [4] } }).2.2.session.breakpoints = [] := by
  refine ⟨?_, by decide, by decide⟩
  decide +kernel

end DebugPanel
end TacBench.Editor
