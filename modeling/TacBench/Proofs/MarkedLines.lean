import TacBench.Proofs.AddedLines

/-! On which lines the change marks of a text stand. A hunk tells where it begins in either text,
and the marks count from its beginning in the saved text. They are on the lines that have been added
as long as the hunks before have taken as many lines as they have given; otherwise they lag behind
by what the text has grown. A hunk of an empty text begins one line too early. -/
namespace TacBench.Editor

open Diff Breakpoints

variable {i j k n : Nat} {d lag : Int} {ms : List Mark} {ls : List (Mark × String)}
  {h : Hunk String} {hs : List (Hunk String)} {older newer : List String} {text : String}

/-- The numbers of the added lines among marked ones, if line `n` of the new text comes next. -/
def addedFrom : Nat → List Mark → List Nat
  | _, [] => []
  | n, .added :: ms => n :: addedFrom (n + 1) ms
  | n, .kept :: ms => addedFrom (n + 1) ms
  | n, .removed :: ms => addedFrom n ms

theorem numbersOf_added (n : Nat) (ms : List Mark) :
    numbersOf (· == .added) n (ms.filter (· != .removed)) = addedFrom n ms := by
  induction ms generalizing n with
  | nil => rfl
  | cons m ms ih =>
    cases m with
    | removed =>
      rw [List.filter_cons_of_neg (by decide)]
      exact ih n
    | kept | added =>
      rw [List.filter_cons_of_pos (by decide), numbersOf_cons, ih]
      rfl

theorem mem_addedFrom : k ∈ addedFrom n (ls.map (·.1)) ↔
    ∃ front text back, ls = front ++ (.added, text) :: back ∧
      k = n + (newerLines front).length := by
  induction ls generalizing n with
  | nil => simp [addedFrom]
  | cons l ls ih =>
    obtain ⟨m, e⟩ := l
    -- A place in the rest is a place in the whole behind one line more.
    have shifted : (∃ front text back, (m, e) :: ls = front ++ (.added, text) :: back ∧
          k = n + (newerLines front).length) ↔
        (m = .added ∧ k = n) ∨ ∃ front text back, ls = front ++ (.added, text) :: back ∧
          k = n + (newerLines ((m, e) :: front)).length := by
      constructor
      · rintro ⟨front, text, back, parts, rfl⟩
        cases front with
        | nil =>
          cases parts
          exact .inl ⟨rfl, rfl⟩
        | cons l front =>
          cases parts
          exact .inr ⟨front, text, back, rfl, rfl⟩
      · rintro (⟨rfl, rfl⟩ | ⟨front, text, back, rfl, rfl⟩)
        · exact ⟨[], e, ls, rfl, rfl⟩
        · exact ⟨(m, e) :: front, text, back, rfl, rfl⟩
    rw [shifted]
    cases m with
    | removed => simpa [addedFrom, newerLines] using ih
    | kept => simpa [addedFrom, newerLines, ← Nat.add_assoc, Nat.add_right_comm n 1]
        using ih (n := n + 1)
    | added =>
      have rest := or_congr_right (a := k = n) (ih (n := n + 1))
      simpa [addedFrom, newerLines, ← Nat.add_assoc, Nat.add_right_comm n 1] using rest

theorem lt_of_mem_addedFrom (member : k ∈ addedFrom n (ls.map (·.1))) :
    n ≤ k ∧ k < n + (newerLines ls).length := by
  obtain ⟨front, text, back, rfl, rfl⟩ := mem_addedFrom.mp member
  have rest : newerLines ((.added, text) :: back) = text :: newerLines back := rfl
  rw [newerLines_append, rest, List.length_append, List.length_cons]
  omega

theorem addedFrom_ascending (n : Nat) (ls : List (Mark × String)) :
    (addedFrom n (ls.map (·.1))).Pairwise (· < ·) := by
  induction ls generalizing n with
  | nil => exact .nil
  | cons l ls ih =>
    obtain ⟨m, e⟩ := l
    cases m with
    | added =>
      refine .cons (fun k member => ?_) (ih (n + 1))
      exact (lt_of_mem_addedFrom member).1
    | kept => exact ih (n + 1)
    | removed => exact ih n

theorem addedFrom_eq_nil_iff : addedFrom n ms = [] ↔ .added ∉ ms := by
  induction ms generalizing n with
  | nil => simp [addedFrom]
  | cons m ms ih => cases m <;> simp [addedFrom, ih]

/-- Counting from another line moves all numbers alike. -/
theorem addedFrom_displaced (apart : (n : Int) = k - d) (ms : List Mark) :
    (addedFrom n ms).map (fun l : Nat => (l : Int)) = (addedFrom k ms).map fun l :
    Nat => (l : Int) - d := by
  induction ms generalizing n k with
  | nil => rfl
  | cons m ms ih =>
    have next : ((n + 1 : Nat) : Int) = (k + 1 : Nat) - d := by omega
    cases m with
    | added => simp [addedFrom, apart, ih next]
    | kept => exact ih next
    | removed => exact ih apart

/-- The numbers that the added lines of a hunk have in the new text. -/
def addedNumbers (h : Hunk String) : List Nat := addedFrom (h.bStart + 1) (h.lines.map (·.1))

/-- Line `n` of the new text stands in a hunk that marks it as added. -/
inductive AddedLine (hs : List (Hunk String)) (n : Nat) (text : String) : Prop
  | within (h : Hunk String) (member : h ∈ hs) (front back : List (Mark × String))
      (parts : h.lines = front ++ (.added, text) :: back)
      (number : n = h.bStart + (newerLines front).length + 1) : AddedLine hs n text

/-- By how many lines a hunk makes the text longer. -/
def growth (h : Hunk String) : Int :=
  (h.lines.map (·.1)).count .added - (h.lines.map (·.1)).count .removed

def totalGrowth : List (Hunk String) → Int
  | [] => 0
  | h :: hs => growth h + totalGrowth hs

/-- The numbers of the added lines, each less what the text has grown before its hunk. -/
def lagging : Int → List (Hunk String) → List Int
  | _, [] => []
  | lag, h :: hs => ((addedNumbers h).map fun n : Nat => (n : Int) - lag) ++
      lagging (lag + growth h) hs

theorem mem_addedNumbers :
    (n ∈ hs.flatMap addedNumbers) ↔ ∃ text, AddedLine hs n text := by
  rw [List.mem_flatMap]
  constructor
  · rintro ⟨h, member, inside⟩
    obtain ⟨front, text, back, parts, number⟩ := mem_addedFrom.mp inside
    exact ⟨text, h, member, front, back, parts, by omega⟩
  · rintro ⟨text, h, member, front, back, parts, number⟩
    exact ⟨h, member, mem_addedFrom.mpr ⟨front, text, back, parts, by omega⟩⟩

theorem newerLines_length_eq (ls : List (Mark × String)) :
    ((newerLines ls).length : Int) =
      (olderLines ls).length + ((ls.map (·.1)).count .added - (ls.map (·.1)).count .removed) := by
  induction ls with
  | nil => rfl
  | cons l ls ih =>
    obtain ⟨m, e⟩ := l
    cases m <;> simp [newerLines, olderLines] at ih ⊢ <;> omega

/-- No added line is in front of the first hunk. -/
theorem lt_of_mem_flatMap (describes : Describes i j older newer hs)
    (member : n ∈ hs.flatMap addedNumbers) :
    j < n := by
  induction describes with
  | same => cases member
  | hunk between h aStart aLength bStart bLength later ih =>
    rw [List.flatMap_cons, List.mem_append] at member
    rcases member with here | behind
    · have bound := (lt_of_mem_addedFrom here).1
      omega
    · have bound := ih behind
      omega

theorem addedNumbers_ascending (describes : Describes i j older newer hs) :
    (hs.flatMap addedNumbers).Pairwise (· < ·) := by
  induction describes with
  | same => exact .nil
  | hunk between h aStart aLength bStart bLength later ih =>
    rw [List.flatMap_cons, List.pairwise_append]
    refine ⟨addedFrom_ascending _ _, ih, fun k here l behind => ?_⟩
    have before := (lt_of_mem_addedFrom here).2
    have after := lt_of_mem_flatMap later behind
    omega

/-- The line that a hunk marks as added is the line of that number. -/
theorem AddedLine.getElem? (describes : Describes i j older newer hs)
    (added : AddedLine hs n text) :
    ∃ k, n = j + k + 1 ∧ newer[k]? = some text := by
  induction describes with
  | same =>
    obtain ⟨h, member, -⟩ := added
    cases member
  | @hunk i j older newer hs between h aStart aLength bStart bLength later ih =>
    obtain ⟨g, member, front, back, parts, number⟩ := added
    rcases List.mem_cons.mp member with rfl | behind
    · refine ⟨between.length + (newerLines front).length, by omega, ?_⟩
      have marked : newerLines g.lines = newerLines front ++ text :: newerLines back := by
        rw [parts, newerLines_append]
        rfl
      simp [marked]
    · obtain ⟨k, number, found⟩ := ih ⟨g, behind, front, back, parts, number⟩
      refine ⟨between.length + ((newerLines h.lines).length + k), by omega, ?_⟩
      rw [List.getElem?_append_right (Nat.le_add_right _ _), Nat.add_sub_cancel_left,
        List.getElem?_append_right (Nat.le_add_right _ _), Nat.add_sub_cancel_left, found]

theorem modifiedIn_eq (h : Hunk String) :
    modifiedIn h = addedFrom (firstLine h) (h.lines.map (·.1)) :=
  numbersOf_added _ _

/-- The numbers told hunk by hunk lag behind by the distance of the two beginnings. -/
theorem modifiedIn_lagging (describes : Describes i j older newer hs)
    (early : ∀ h ∈ hs, (firstLine h : Int) = h.aStart + 1 - d) :
    (hs.flatMap modifiedIn).map (fun n : Nat => (n : Int)) = lagging (d + (j - i)) hs := by
  induction describes with
  | same => rfl
  | @hunk i j older newer hs between h aStart aLength bStart bLength later ih =>
    have first := early h List.mem_cons_self
    have start : (firstLine h : Int) = (h.bStart + 1 : Nat) - (d + (j - i)) := by omega
    have longer := newerLines_length_eq h.lines
    have grown : d + ((h.bStart + h.bLength : Nat) - (h.aStart + h.aLength : Nat) : Int) =
        d + (j - i) + growth h := by
      rw [growth]
      omega
    have rest := ih fun g behind => early g (List.mem_cons_of_mem h behind)
    rw [grown] at rest
    rw [List.flatMap_cons, List.map_append, rest, modifiedIn_eq, addedFrom_displaced start]
    rfl

theorem map_sub_eq_map_iff (ns : List Nat) (lag : Int) :
    (ns.map fun n : Nat => (n : Int) - lag) = ns.map (fun n : Nat => (n : Int)) ↔
    (ns ≠ [] → lag = 0) := by
  constructor
  · intro same some
    obtain ⟨n, ns, rfl⟩ := List.exists_cons_of_ne_nil some
    have first : (n : Int) - lag = n := (List.cons.inj same).1
    omega
  · intro none
    refine List.map_congr_left fun n member => ?_
    rw [none (List.ne_nil_of_mem member), Int.sub_zero]

/-- The numbers are right exactly if each hunk that adds lines stands where the text has not
grown. -/
theorem lagging_eq_iff (lag : Int) (hs : List (Hunk String)) :
    lagging lag hs = (hs.flatMap addedNumbers).map (fun n : Nat => (n : Int)) ↔
      ∀ earlier h later, hs = earlier ++ h :: later → .added ∈ h.lines.map (·.1) →
        lag + totalGrowth earlier = 0 := by
  induction hs generalizing lag with
  | nil => simp [lagging]
  | cons h hs ih =>
    have lengths : ((addedNumbers h).map fun n : Nat => (n : Int) - lag).length =
        ((addedNumbers h).map fun n : Nat => (n : Int)).length := by simp
    have adds : addedNumbers h ≠ [] ↔ .added ∈ h.lines.map (·.1) := by
      rw [addedNumbers, ne_eq, addedFrom_eq_nil_iff, Decidable.not_not]
    have parts (ks ls : List Int) : ((addedNumbers h).map fun n : Nat => (n : Int) - lag) ++ ks =
        (addedNumbers h).map (fun n : Nat => (n : Int)) ++ ls ↔
        (.added ∈ h.lines.map (·.1) → lag = 0) ∧ ks = ls := by
      rw [← adds, ← map_sub_eq_map_iff]
      constructor
      · intro same
        exact List.append_inj same lengths
      · rintro ⟨first, rfl⟩
        rw [first]
    rw [lagging, List.flatMap_cons, List.map_append, parts, ih]
    constructor
    · rintro ⟨here, behind⟩ earlier g later parts added
      cases earlier with
      | nil =>
        cases parts
        simpa [totalGrowth] using here added
      | cons f earlier =>
        cases parts
        have rest := behind earlier g later rfl added
        rwa [Int.add_assoc] at rest
    · intro all
      refine ⟨fun added => ?_, fun earlier g later parts added => ?_⟩
      · simpa [totalGrowth] using all [] h hs rfl added
      · have whole := all (h :: earlier) g later (congrArg (h :: ·) parts) added
        rwa [totalGrowth, ← Int.add_assoc] at whole

theorem aLength_le (describes : Describes i j older newer hs) (member : h ∈ hs) :
    h.aLength ≤ older.length := by
  induction describes with
  | same => cases member
  | hunk between g aStart aLength bStart bLength later ih =>
    simp only [List.length_append]
    rcases List.mem_cons.mp member with rfl | behind
    · omega
    · have bound := ih behind
      omega

theorem textLines_eq_nil_iff {s : String} : textLines s = [] ↔ s = "" := by
  constructor
  · intro empty
    have parts := Text.keptLines_flatten id s.toList
    rw [List.map_eq_nil_iff.mp empty] at parts
    exact String.toList_eq_nil_iff.mp parts.symm
  · rintro rfl
    rfl

namespace ChangeMarks

/-- The hunks from the saved text to a new one. -/
def savedHunks (c : ChangeMarks) (new : String) : List (Hunk String) :=
  hunks (textLines c.saved) (textLines new)

/-- How many lines too early the hunks of the saved text begin. -/
def lead (c : ChangeMarks) : Int := if c.saved = "" then 1 else 0

theorem firstLine_eq (c : ChangeMarks) (new : String) (member : h ∈ c.savedHunks new) :
    (firstLine h : Int) = h.aStart + 1 - c.lead := by
  unfold firstLine shownStart lead
  by_cases empty : c.saved = ""
  · have none : h.aLength = 0 := by
      have bound := aLength_le (hunks_describe _ _) member
      rw [textLines_eq_nil_iff.mpr empty] at bound
      exact Nat.le_zero.mp bound
    rw [if_pos none, if_pos empty]
    omega
  · have some : h.aLength ≠ 0 := aLength_ne_zero (mt textLines_eq_nil_iff.mp empty) member
    rw [if_neg some, if_neg empty]
    omega

theorem compare_fst (c : ChangeMarks) (new : String) :
    (c.compare new).1 = (c.savedHunks new).flatMap modifiedIn := by
  rw [compare, savedHunks]
  cases c.movedLines new with
  | mk added removed =>
    dsimp only
    rw [modifiedLines]

theorem compare_lagging (c : ChangeMarks) (new : String) :
    (c.compare new).1.map (fun n : Nat => (n : Int)) = lagging c.lead (c.savedHunks new) := by
  have describes : Describes 0 0 (textLines c.saved) (textLines new) (c.savedHunks new) :=
    hunks_describe _ _
  have lags := modifiedIn_lagging describes fun h => c.firstLine_eq new
  rw [Int.sub_self, Int.add_zero] at lags
  rw [compare_fst, lags]

/-- The added lines of a new text have numbers in ascending order. The marks of a hunk stand as many
lines in front of them as the text has grown before it, and a line further for an empty text. They
are right exactly if this is nothing for all hunks that add a line. -/
theorem marks_lag_behind_growth (c : ChangeMarks) (new : String) :
    Describes 0 0 (textLines c.saved) (textLines new) (c.savedHunks new) ∧
    ((c.savedHunks new).flatMap addedNumbers).Pairwise (· < ·) ∧
    (∀ n, n ∈ (c.savedHunks new).flatMap addedNumbers ↔
      ∃ text, AddedLine (c.savedHunks new) n text) ∧
    (∀ n text, AddedLine (c.savedHunks new) n text → 1 ≤ n ∧ (textLines new)[n - 1]? = some text) ∧
    (c.compare new).1.map (fun n : Nat => (n : Int)) = lagging c.lead (c.savedHunks new) ∧
    ((c.compare new).1 = (c.savedHunks new).flatMap addedNumbers ↔
      ∀ earlier h later, c.savedHunks new = earlier ++ h :: later → .added ∈ h.lines.map (·.1) →
        c.lead + totalGrowth earlier = 0) := by
  have describes : Describes 0 0 (textLines c.saved) (textLines new) (c.savedHunks new) :=
    hunks_describe _ _
  have told : (c.compare new).1.map (fun n : Nat => (n : Int)) =
      lagging c.lead (c.savedHunks new) :=
    c.compare_lagging new
  refine ⟨describes, addedNumbers_ascending describes, fun n => mem_addedNumbers, ?_, told, ?_⟩
  · intro n text added
    obtain ⟨k, rfl, found⟩ := added.getElem? describes
    exact ⟨Nat.le_add_left 1 _, by simpa using found⟩
  · rw [← lagging_eq_iff, ← told]
    exact (List.map_inj_right fun _ _ => Int.ofNat.inj).symm

/-- Eight saved lines. -/
def eightSaved : ChangeMarks where
  saved := "a\nb\nc\nd\ne\nf\ng\nh\n"

/-- A line comes in front of the first and another in front of the last of eight lines. The second
one is the ninth line of the new text, but the eighth is marked. In a text that was empty the first
line is marked as number 0. -/
theorem second_mark_misplaced :
    (eightSaved.compare DebugPanel.tenLines).1 = [1, 8] ∧
    (eightSaved.savedHunks DebugPanel.tenLines).flatMap addedNumbers = [1, 9] ∧
    (textLines DebugPanel.tenLines)[7]? = some "g\n" ∧
    (textLines DebugPanel.tenLines)[8]? = some "y\n" ∧
    (compare "x\n" { saved := "" }).1 = [0] ∧
    (savedHunks { saved := "" } "x\n").flatMap addedNumbers = [1] := by
  refine ⟨?_, ?_, ?_, ?_, ?_, ?_⟩
  · decide +kernel
  · decide +kernel
  · decide +kernel
  · decide +kernel
  · decide +kernel
  · decide +kernel

end ChangeMarks
end TacBench.Editor
