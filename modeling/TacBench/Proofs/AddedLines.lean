import TacBench.Editor.ChangeMarks
import TacBench.Editor.DebugPanel
import TacBench.Proofs.Hunks

/-! What becomes of breakpoints when lines are added. The numbers of the added lines count from the
start of their hunk in the old text, and within one hunk they move every breakpoint along with its
line. The breakpoints have however been moved by the hunks before it, so that a hunk may push a
breakpoint that lies in front of it. Told from the last hunk to the first, the lines would move the
breakpoints as they should. -/
namespace TacBench.Editor

open Diff

namespace Breakpoints

variable {α : Type} {line x y : Int} {i j : Nat} {h : Hunk String} {hs : List (Hunk String)}
  {ms : List Mark} {ls : List (Mark × α)} {older newer : List String}

/-- One breakpoint when one line comes. -/
def pushed (x line : Int) : Int := if x < line then x else x + 1

-- Each breakpoint can be followed by itself.
theorem afterAdded_eq (lines bs : List Int) :
    afterAdded lines bs = bs.map fun x => lines.foldl pushed x := by
  unfold afterAdded
  induction lines generalizing bs with
  | nil => exact (List.map_id' bs).symm
  | cons line lines ih =>
    rw [List.foldl_cons, ih, afterAddedLine, List.map_map]
    rfl

/-- The lines that are added in front of line `x` of the old text; the next old line is `line`. -/
def addedBefore (line x : Int) : List Mark → Nat
  | [] => 0
  | .added :: ms => addedBefore line x ms + if line ≤ x then 1 else 0
  | _ :: ms => addedBefore (line + 1) x ms

@[simp] theorem addedBefore_added :
    addedBefore line x (.added :: ms) = addedBefore line x ms + if line ≤ x then 1 else 0 := rfl

@[simp] theorem addedBefore_kept : addedBefore line x (.kept :: ms) = addedBefore (line + 1) x ms :=
  rfl

theorem addedBefore_of_lt (front : x < line) : addedBefore line x ms = 0 := by
  induction ms generalizing line with
  | nil => rfl
  | cons m ms ih =>
    cases m with
    | added => rw [addedBefore, ih front, if_neg (Int.not_le.mpr front)]
    | kept | removed => exact ih (Int.lt_add_one_of_le (Int.le_of_lt front))

theorem addedBefore_mono (ordered : x ≤ y) : addedBefore line x ms ≤ addedBefore line y ms := by
  induction ms generalizing line with
  | nil => exact Nat.le_refl 0
  | cons m ms ih =>
    cases m with
    | added =>
      have rest : addedBefore line x ms ≤ addedBefore line y ms := ih
      simp only [addedBefore]
      split <;> split <;> omega
    | kept | removed => exact ih

theorem numbersOf_cons {β : Type} (p : β → Bool) (n : Nat) (e : β) (es : List β) :
    numbersOf p n (e :: es) = (if p e then [n] else []) ++ numbersOf p (n + 1) es := by
  simp only [numbersOf, List.zipIdx_cons, List.filter_cons]
  split <;> rfl

/-- The numbers of the added lines of a hunk as far as it lies ahead: `d` lines of it have come. -/
theorem foldl_pushed (kept : .removed ∉ ms) (n : Nat) (x d : Int) :
    ((numbersOf (· == PairMark.added) n (ms.map PairMark.ofMark)).map fun k : Nat =>
      (k : Int)).foldl pushed (x + d) =
      x + d + addedBefore (n - d) x ms := by
  induction ms generalizing n d with
  | nil => simp [numbersOf, addedBefore]
  | cons m ms ih =>
    obtain ⟨other, later⟩ := List.ne_and_not_mem_of_not_mem_cons kept
    rw [List.map_cons, numbersOf_cons]
    cases m with
    | removed => exact absurd rfl other
    | kept =>
      have next : (n : Int) - d + 1 = (n + 1 : Nat) - d := by omega
      rw [addedBefore_kept, next]
      exact ih later (n + 1) d
    | added =>
      rw [addedBefore]
      rcases Int.lt_or_le x (n - d) with front | behind
      · have passed : x < ((n + 1 : Nat) : Int) - d := by omega
        have rest := ih later (n + 1) d
        rw [addedBefore_of_lt passed] at rest
        rw [addedBefore_of_lt front, if_neg (Int.not_le.mpr front)]
        have still : pushed (x + d) n = x + d := if_pos (by omega)
        simpa [PairMark.ofMark, still] using rest
      · have next : pushed (x + d) n = x + (d + 1) := by
          rw [pushed, if_neg (by omega), Int.add_assoc]
        have rest := ih later (n + 1) (d + 1)
        have same : ((n + 1 : Nat) : Int) - (d + 1) = n - d := by omega
        rw [same] at rest
        rw [if_pos behind]
        simp [PairMark.ofMark, next, rest]
        omega

/-- The lines that a hunk adds in front of line `x` of the old text. -/
def addedIn (h : Hunk String) (x : Int) : Nat := addedBefore (h.aStart + 1) x (h.lines.map (·.1))

/-- The lines that all hunks add in front of line `x` of the old text. -/
def addedTotal : List (Hunk String) → Int → Nat
  | [], _ => 0
  | h :: hs, x => addedIn h x + addedTotal hs x

/-- Where hunks take a breakpoint, each from the line on which the ones before it have left it. -/
def drift : List (Hunk String) → Int → Int
  | [], x => x
  | h :: hs, x => drift hs (x + addedIn h x)

/-- Every hunk adds as many lines in front of a breakpoint that the hunks before it have moved as in
front of its line in the old text. -/
def Undisturbed (hs : List (Hunk String)) (x : Int) : Prop :=
  ∀ earlier h later, hs = earlier ++ h :: later → addedIn h (drift earlier x) = addedIn h x

def OnlyAdds (hs : List (Hunk String)) : Prop := ∀ h ∈ hs, .removed ∉ h.lines.map (·.1)

theorem drift_lt (before : x < y) : drift hs x < drift hs y := by
  induction hs generalizing x y with
  | nil => exact before
  | cons h hs ih =>
    have more : addedIn h x ≤ addedIn h y := addedBefore_mono (Int.le_of_lt before)
    exact ih (by omega)

theorem le_drift (ordered : x ≤ y) : y + addedTotal hs x ≤ drift hs y := by
  induction hs generalizing y with
  | nil => simp [addedTotal, drift]
  | cons h hs ih =>
    have more : addedIn h x ≤ addedIn h y := addedBefore_mono ordered
    have rest := ih (y := y + addedIn h y) (by omega)
    simp only [addedTotal, drift]
    omega

theorem drift_eq_iff (ordered : x ≤ y) :
    drift hs y = y + addedTotal hs x ↔
      ∀ earlier h later, hs = earlier ++ h :: later →
        addedIn h (drift earlier y) = addedIn h x := by
  induction hs generalizing y with
  | nil => simp [addedTotal, drift]
  | cons h hs ih =>
    have more : addedIn h x ≤ addedIn h y := addedBefore_mono ordered
    have further : x ≤ y + addedIn h y := by omega
    have rest : y + addedIn h y + addedTotal hs x ≤ drift hs (y + addedIn h y) := le_drift further
    simp only [addedTotal, drift]
    constructor
    · intro equal earlier g later parts
      cases earlier with
      | nil =>
        cases parts
        dsimp only [drift]
        omega
      | cons f earlier =>
        cases parts
        exact (ih further).mp (by omega) earlier g later rfl
    · intro same
      have here : addedIn h y = addedIn h x := same [] h hs rfl
      have later := (ih further).mpr fun earlier g later parts =>
        same (h :: earlier) g later (congrArg (h :: ·) parts)
      omega

theorem pairOnce_eq_none {ms : List PairMark} (kept : .removed ∉ ms) : pairOnce ms = none := by
  induction ms with
  | nil => rfl
  | cons m ms ih =>
    obtain ⟨other, later⟩ := List.ne_and_not_mem_of_not_mem_cons kept
    cases m with
    | removed => exact absurd rfl other
    | kept | added | paired => simp [pairOnce, ih later]

theorem pairAll_eq {ms : List PairMark} (kept : .removed ∉ ms) : pairAll ms = ms := by
  rw [pairAll]
  split
  · rfl
  · rename_i some
    rw [pairOnce_eq_none kept] at some
    cases some

theorem numbersOf_eq_nil {β : Type} {p : β → Bool} {es : List β}
    (none : ∀ e ∈ es, p e = false) (n : Nat) :
    numbersOf p n es = [] := by
  induction es generalizing n with
  | nil => rfl
  | cons e es ih =>
    rw [numbersOf_cons, none e List.mem_cons_self, ih fun f later =>
      none f (List.mem_cons_of_mem e later)]
    rfl

theorem movedIn_eq (kept : .removed ∉ h.lines.map (·.1)) :
    movedIn h = (numbersOf (· == PairMark.added) (firstLine h)
      ((h.lines.map (·.1)).map PairMark.ofMark), []) := by
  have unpaired : .removed ∉ (h.lines.map (·.1)).map PairMark.ofMark := by
    intro member
    obtain ⟨m, inside, same⟩ := List.mem_map.mp member
    cases m with
    | removed => exact kept inside
    | kept | added => cases same
  have gone : ∀ m ∈ (h.lines.map (·.1)).map PairMark.ofMark, (m == .removed) = false :=
    fun m inside => beq_false_of_ne fun same => unpaired (same ▸ inside)
  have fused : h.lines.map (fun l => .ofMark l.1) = (h.lines.map (·.1)).map PairMark.ofMark := by
    rw [List.map_map]
    rfl
  rw [movedIn, fused, pairAll_eq unpaired, numbersOf_eq_nil gone]

def shownAdded (h : Hunk String) : List Int := (movedIn h).1.map fun k : Nat => (k : Int)

theorem foldl_shownAdded (kept : .removed ∉ h.lines.map (·.1)) (some : h.aLength ≠ 0) (x : Int) :
    (shownAdded h).foldl pushed x = x + addedIn h x := by
  have moved := foldl_pushed kept (h.aStart + 1) x 0
  rw [Int.add_zero, Int.sub_zero] at moved
  rw [shownAdded, movedIn_eq kept, firstLine, shownStart, if_neg some]
  exact moved

theorem foldl_flatMap_shownAdded (additions : OnlyAdds hs)
    (some : ∀ h ∈ hs, h.aLength ≠ 0) (x : Int) :
    (hs.flatMap shownAdded).foldl pushed x = drift hs x := by
  induction hs generalizing x with
  | nil => rfl
  | cons h hs ih =>
    rw [List.flatMap_cons, List.foldl_append,
      foldl_shownAdded (additions h List.mem_cons_self) (some h List.mem_cons_self)]
    exact ih (fun g later => additions g (List.mem_cons_of_mem h later))
      (fun g later => some g (List.mem_cons_of_mem h later)) _

/-- A kept line of a hunk and the lines added in front of it. -/
theorem getElem?_newerLines (kept : .removed ∉ ls.map (·.1)) (k : Nat)
    (inside : k < (olderLines ls).length) (line : Int) :
    (newerLines ls)[k + addedBefore line (line + k) (ls.map (·.1))]? = (olderLines ls)[k]? := by
  induction ls generalizing k line with
  | nil => cases inside
  | cons l ls ih =>
    obtain ⟨m, e⟩ := l
    obtain ⟨other, later⟩ := List.ne_and_not_mem_of_not_mem_cons kept
    cases m with
    | removed => exact absurd rfl other
    | added =>
      have rest := ih later k inside line
      simp only [List.map_cons, addedBefore,
        if_pos (Int.le_add_of_nonneg_right (Int.natCast_nonneg k))]
      exact rest
    | kept =>
      cases k with
      | zero =>
        have none : addedBefore (line + 1) (line + (0 : Nat)) (ls.map (·.1)) = 0 :=
          addedBefore_of_lt (by omega)
        simp only [List.map_cons, addedBefore, none]
        rfl
      | succ k =>
        have rest := ih later k (Nat.lt_of_succ_lt_succ inside) (line + 1)
        have same : line + 1 + k = line + (k + 1 : Nat) := by omega
        rw [same] at rest
        simp only [List.map_cons, addedBefore, Nat.succ_add]
        exact rest

/-- Behind a hunk all its lines have come. -/
theorem length_newerLines (kept : .removed ∉ ls.map (·.1)) (line : Int)
    (behind : line + (olderLines ls).length ≤ x) :
    (newerLines ls).length = (olderLines ls).length + addedBefore line x (ls.map (·.1)) := by
  induction ls generalizing line with
  | nil => rfl
  | cons l ls ih =>
    obtain ⟨m, e⟩ := l
    obtain ⟨other, later⟩ := List.ne_and_not_mem_of_not_mem_cons kept
    cases m with
    | removed => exact absurd rfl other
    | added =>
      have rest := ih later line behind
      have ordered : line ≤ x := by omega
      have longer : (newerLines ((.added, e) :: ls)).length = (newerLines ls).length + 1 := rfl
      have same : olderLines ((.added, e) :: ls) = olderLines ls := rfl
      rw [longer, rest, same, List.map_cons, addedBefore_added, if_pos ordered, Nat.add_assoc]
    | kept =>
      have longer : (newerLines ((.kept, e) :: ls)).length = (newerLines ls).length + 1 := rfl
      have more : (olderLines ((.kept, e) :: ls)).length = (olderLines ls).length + 1 := rfl
      have rest := ih later (line + 1) (by omega)
      rw [longer, rest, more, List.map_cons, addedBefore_kept, Nat.add_right_comm]

theorem addedTotal_of_le (describes : Describes i j older newer hs) (front : x ≤ i) :
    addedTotal hs x = 0 := by
  induction describes with
  | same => rfl
  | hunk between h aStart aLength bStart bLength later ih =>
    have first : addedIn h x = 0 := addedBefore_of_lt (by omega)
    rw [addedTotal, first, ih (by omega)]

/-- A line that is kept is found behind the lines that are added in front of it. -/
theorem getElem?_newer (describes : Describes i j older newer hs)
    (additions : OnlyAdds hs) (k : Nat) (inside : k < older.length) :
    newer[k + addedTotal hs (i + k + 1)]? = older[k]? := by
  induction describes generalizing k with
  | same => rfl
  | @hunk i j older newer hs between h aStart aLength bStart bLength later ih =>
    have kept := additions h List.mem_cons_self
    rcases Nat.lt_or_ge k between.length with front | behind
    · have none : addedTotal (h :: hs) (i + k + 1) = 0 := by
        have first : addedIn h (i + k + 1) = 0 := addedBefore_of_lt (by omega)
        rw [addedTotal, first, addedTotal_of_le later (by omega)]
      rw [none, Nat.add_zero, List.getElem?_append_left front, List.getElem?_append_left front]
    · obtain ⟨k, rfl⟩ := Nat.exists_eq_add_of_le behind
      have place : (i : Int) + (between.length + k : Nat) + 1 = h.aStart + 1 + k := by omega
      rw [place, Nat.add_assoc, List.getElem?_append_right (Nat.le_add_right _ _),
        List.getElem?_append_right (Nat.le_add_right _ _), Nat.add_sub_cancel_left,
        Nat.add_sub_cancel_left]
      rcases Nat.lt_or_ge k (olderLines h.lines).length with within | behind
      · have none : addedTotal hs (h.aStart + 1 + k) = 0 := addedTotal_of_le later (by omega)
        have found := getElem?_newerLines kept k within (h.aStart + 1)
        rw [List.getElem?_append_left within, addedTotal, none, Nat.add_zero, addedIn, ← found]
        rw [List.getElem?_eq_getElem within] at found
        exact List.getElem?_append_left (List.getElem?_eq_some_iff.mp found).1
      · obtain ⟨k, rfl⟩ := Nat.exists_eq_add_of_le behind
        have rest := ih (fun g member => additions g (List.mem_cons_of_mem h member)) k
          (by simpa [Nat.add_assoc] using inside)
        have place : ((h.aStart + h.aLength : Nat) : Int) + k + 1 =
            h.aStart + 1 + ((olderLines h.lines).length + k : Nat) := by omega
        rw [place] at rest
        have come := length_newerLines kept (h.aStart + 1)
          (Int.add_le_add_left (Int.ofNat_le.mpr (Nat.le_add_right _ k)) _)
        rw [addedTotal, addedIn, Nat.add_right_comm, ← Nat.add_assoc, ← come, Nat.add_right_comm,
          Nat.add_assoc, List.getElem?_append_right (Nat.le_add_right _ _),
          List.getElem?_append_right (Nat.le_add_right _ _), Nat.add_sub_cancel_left,
          Nat.add_sub_cancel_left, rest]

/-- A hunk does not tell apart two lines behind it. -/
theorem addedIn_of_behind (kept : .removed ∉ h.lines.map (·.1))
    (aLength : h.aLength = (olderLines h.lines).length) (behind : h.aStart + h.aLength < x)
    (ordered : x ≤ y) : addedIn h y = addedIn h x := by
  have atX := length_newerLines (x := x) kept (h.aStart + 1) (by omega)
  have atY := length_newerLines (x := y) kept (h.aStart + 1) (by omega)
  exact Nat.add_left_cancel (atY.symm.trans atX)

theorem drift_append (fs gs : List (Hunk String)) (x : Int) :
    drift (fs ++ gs) x = drift gs (drift fs x) := by
  induction fs generalizing x with
  | nil => rfl
  | cons f fs ih => exact ih _

/-- From the last hunk to the first, no hunk finds a breakpoint that has been moved past its
lines. -/
theorem drift_reverse (describes : Describes i j older newer hs)
    (additions : OnlyAdds hs) (x : Int) :
    drift hs.reverse x = x + addedTotal hs x := by
  induction describes with
  | same => exact (Int.add_zero x).symm
  | @hunk i j older newer hs between h aStart aLength bStart bLength later ih =>
    rw [List.reverse_cons, drift_append, ih fun g member =>
      additions g (List.mem_cons_of_mem h member)]
    simp only [drift, addedTotal]
    rcases Int.lt_or_le (h.aStart + h.aLength) x with behind | front
    · have same : addedIn h (x + addedTotal hs x) = addedIn h x :=
        addedIn_of_behind (additions h List.mem_cons_self) aLength behind (by omega)
      omega
    · have none : addedTotal hs x = 0 := addedTotal_of_le later (by omega)
      simp [none]

end Breakpoints

open Breakpoints

namespace ChangeMarks

/-- The hunks from the snapshot to a new text. -/
def hunksTo (c : ChangeMarks) (new : String) : List (Hunk String) :=
  hunks (textLines c.snapshot) (textLines new)

theorem movedLines_of_onlyAdds {c : ChangeMarks} {new : String}
    (additions : OnlyAdds (c.hunksTo new)) :
    c.movedLines new = ((c.hunksTo new).flatMap fun h => (movedIn h).1, []) := by
  have gone : (c.hunksTo new).flatMap (fun h => (movedIn h).2) = [] :=
    List.flatMap_eq_nil_iff.mpr fun h member => by rw [movedIn_eq (additions h member)]
  simp only [movedLines, List.flatMap_map]
  rw [← hunksTo, gone]

end ChangeMarks

namespace DebugPanel

/-- The panel is told of lines that have come or gone. -/
def told (p : DebugPanel) : ChangeEvent → DebugPanel
  | .added lines => (p.linesAdded (lines.map fun k : Nat => (k : Int))).2.2
  | .removed lines => (p.linesRemoved (lines.map fun k : Nat => (k : Int))).2.2
  | .saved _ => p

theorem foldl_told {c : ChangeMarks} {new : String} (additions : OnlyAdds (c.hunksTo new))
    (p : DebugPanel) :
    (c.compare new).2.foldl told p =
      (p.linesAdded ((c.hunksTo new).flatMap shownAdded)).2.2 := by
  have numbers : ((c.hunksTo new).flatMap fun h => (movedIn h).1).map (fun k : Nat => (k : Int)) =
      (c.hunksTo new).flatMap shownAdded := List.map_flatMap
  rw [ChangeMarks.compare, ChangeMarks.movedLines_of_onlyAdds additions, ← numbers]
  cases (c.hunksTo new).flatMap fun h => (movedIn h).1 with
  | nil => rfl
  | cons k ks => rfl

/-- When a text only gains lines, the hunks move the breakpoints one after the other. Each
breakpoint ends on the line that has its text exactly if the lines that a hunk adds in front of it
are the same before and after the earlier hunks have moved it. No two breakpoints meet. From the
last hunk to the first, every breakpoint would stay with its text. -/
theorem insertion_drifts (c : ChangeMarks) (new : String) (p : DebugPanel)
    (additions : OnlyAdds (c.hunksTo new))
    (onLines : ∀ x ∈ p.session.breakpoints, 1 ≤ x ∧ x ≤ (textLines c.snapshot).length) :
    (c.compare new).2.foldl told p =
      (p.withBreakpoints (p.session.breakpoints.map (drift (c.hunksTo new)))).2.2 ∧
    (∀ x ∈ p.session.breakpoints,
      (textLines new)[(x + addedTotal (c.hunksTo new) x - 1).toNat]? =
        (textLines c.snapshot)[(x - 1).toNat]?) ∧
    (∀ x, drift (c.hunksTo new) x = x + addedTotal (c.hunksTo new) x ↔
      Undisturbed (c.hunksTo new) x) ∧
    (∀ x y, x < y → drift (c.hunksTo new) x < drift (c.hunksTo new) y) ∧
    p.linesAdded ((c.hunksTo new).reverse.flatMap shownAdded) =
      p.withBreakpoints (p.session.breakpoints.map fun x => x + addedTotal (c.hunksTo new) x) := by
  have describes : Describes 0 0 (textLines c.snapshot) (textLines new) (c.hunksTo new) :=
    hunks_describe _ _
  have some : ∀ x ∈ p.session.breakpoints, ∀ h ∈ c.hunksTo new, h.aLength ≠ 0 := by
    intro x member h
    have line := onLines x member
    exact aLength_ne_zero (List.ne_nil_of_length_pos (by omega))
  have forwards : p.session.breakpoints.map (fun x =>
      ((c.hunksTo new).flatMap shownAdded).foldl pushed x) =
      p.session.breakpoints.map (drift (c.hunksTo new)) :=
    List.map_congr_left fun x member => foldl_flatMap_shownAdded additions (some x member) x
  have backwards : p.session.breakpoints.map
        (fun x => ((c.hunksTo new).reverse.flatMap shownAdded).foldl pushed x) =
      p.session.breakpoints.map fun x => x + addedTotal (c.hunksTo new) x := by
    refine List.map_congr_left fun x member => ?_
    have reversed : OnlyAdds (c.hunksTo new).reverse :=
      fun h inside => additions h (List.mem_reverse.mp inside)
    rw [foldl_flatMap_shownAdded reversed fun h inside =>
      some x member h (List.mem_reverse.mp inside)]
    exact drift_reverse describes additions x
  refine ⟨?_, ?_, fun x => drift_eq_iff (Int.le_refl x), fun x y => drift_lt, ?_⟩
  · rw [foldl_told additions, linesAdded, afterAdded_eq, forwards]
  · intro x member
    have line := onLines x member
    obtain ⟨k, rfl⟩ : ∃ k : Nat, x = (0 : Nat) + k + 1 := ⟨(x - 1).toNat, by omega⟩
    have found := getElem?_newer describes additions k (by omega)
    have old : ((0 : Nat) + (k : Int) + 1 - 1).toNat = k := by omega
    have shifted (n : Nat) : ((0 : Nat) + (k : Int) + 1 + n - 1).toNat = k + n := by omega
    rw [old, shifted, found]
  · rw [linesAdded, afterAdded_eq, backwards]

/-- A panel with a breakpoint on the first, seventh and eighth line. -/
def threeBreakpoints : DebugPanel where
  session := { breakpoints := [1, 7, 8] }

/-- Eight lines. -/
def eightLines : ChangeMarks where
  snapshot := "a\nb\nc\nd\ne\nf\ng\nh\n"

/-- A line comes in front of the first and another in front of the last of eight lines. -/
def tenLines : String := "x\na\nb\nc\nd\ne\nf\ng\ny\nh\n"

theorem threeBreakpoints_among_ten_lines :
    OnlyAdds (eightLines.hunksTo tenLines) ∧
    (∀ x ∈ threeBreakpoints.session.breakpoints, 1 ≤ x ∧
      x ≤ (textLines eightLines.snapshot).length) ∧
    ((eightLines.compare tenLines).2.foldl told threeBreakpoints).session.breakpoints = [2, 9, 10] ∧
    (threeBreakpoints.linesAdded ((eightLines.hunksTo tenLines).reverse.flatMap
      shownAdded)).2.2.session.breakpoints =
      [2, 8, 10] := by
  have additions : OnlyAdds (eightLines.hunksTo tenLines) := by
    unfold OnlyAdds
    decide +kernel
  have onLines : ∀ x ∈ threeBreakpoints.session.breakpoints, 1 ≤ x ∧
      x ≤ (textLines eightLines.snapshot).length := by
    decide +kernel
  obtain ⟨down, -, -, -, up⟩ :=
    insertion_drifts eightLines tenLines threeBreakpoints additions onLines
  refine ⟨additions, onLines, ?_, ?_⟩
  · rw [down]
    decide +kernel
  · rw [up]
    decide +kernel

/-- A line comes in front of the first and another in front of the last of eight lines. The
breakpoint on the seventh line should follow it to the eighth, and goes to the ninth, which is
new. -/
theorem insertion_misplaces_breakpoint :
    (eightLines.compare tenLines).2 = [.added [1, 8]] ∧
    (textLines eightLines.snapshot)[6]? = .some "g\n" ∧ (textLines tenLines)[7]? = .some "g\n" ∧
    7 + addedTotal (eightLines.hunksTo tenLines) 7 = 8 ∧
    (linesAdded [1, 8] { session := { breakpoints := [7] } }).2.2.session.breakpoints = [9] := by
  refine ⟨?_, ?_, ?_, ?_, by decide⟩
  · decide +kernel
  · decide +kernel
  · decide +kernel
  · decide +kernel

end DebugPanel
end TacBench.Editor
