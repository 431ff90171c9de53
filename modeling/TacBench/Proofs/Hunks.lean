import TacBench.Diff.Unified
import TacBench.Proofs.Matching

/-! The hunks of a unified difference say how one sequence of lines becomes the other. They stand at
the numbers that they give, in order; between them and around them the two sequences are the
same. -/
namespace TacBench.Diff

variable {α : Type} {a b : Array α} {i j k l n o p q : Nat} {s : Stretch} {ss ts : List Stretch}

def olderLines (ls : List (Mark × α)) : List α := (ls.filter (·.1 ≠ .added)).map (·.2)

def newerLines (ls : List (Mark × α)) : List α := (ls.filter (·.1 ≠ .removed)).map (·.2)

/-- Two sequences of which the first `i` and `j` lines have been passed: the hunks tell where what
is left of them differs. -/
inductive Describes : Nat → Nat → List α → List α → List (Hunk α) → Prop
  | same {i j : Nat} (rest : List α) : Describes i j rest rest []
  | hunk {i j : Nat} {older newer : List α} {hs : List (Hunk α)} (between : List α) (h : Hunk α)
      (aStart : h.aStart = i + between.length) (aLength : h.aLength = (olderLines h.lines).length)
      (bStart : h.bStart = j + between.length) (bLength : h.bLength = (newerLines h.lines).length)
      (later : Describes (h.aStart + h.aLength) (h.bStart + h.bLength) older newer hs) :
      Describes i j (between ++ (olderLines h.lines ++ older))
        (between ++ (newerLines h.lines ++ newer))
        (h :: hs)

/-- The next `n` lines are the same in both sequences. -/
def Alike (a b : Array α) (i j n : Nat) : Prop := ∀ k < n, a[i + k]? = b[j + k]?

theorem Alike.append (first : Alike a b i j n) (second : Alike a b (i + n) (j + n) o) :
    Alike a b i j (n + o) := by
  intro k bound
  rcases Nat.lt_or_ge k n with inside | later
  · exact first k inside
  · obtain ⟨d, rfl⟩ := Nat.exists_eq_add_of_le later
    have equal := second d (Nat.lt_of_add_lt_add_left bound)
    rwa [Nat.add_assoc, Nat.add_assoc] at equal

theorem Alike.take (alike : Alike a b i j n) (fewer : o ≤ n) : Alike a b i j o :=
  fun k bound => alike k (Nat.lt_of_lt_of_le bound fewer)

theorem Alike.drop (alike : Alike a b i j (n + o)) : Alike a b (i + n) (j + n) o := by
  intro k bound
  have equal := alike (n + k) (Nat.add_lt_add_left bound n)
  rwa [← Nat.add_assoc, ← Nat.add_assoc] at equal

theorem slice_length (xs : Array α) (ordered : i ≤ j) (within : j ≤ xs.size) :
    (slice xs i j).length = j - i := by
  simp only [slice, List.length_drop, List.length_take, Array.length_toList]
  omega

theorem getElem?_slice (xs : Array α) :
    (slice xs i j)[k]? = if i + k < j then xs[i + k]? else none := by
  simp only [slice, List.getElem?_drop, List.getElem?_take, Array.getElem?_toList]

theorem slice_append_drop (xs : Array α) (ordered : i ≤ j) (within : j ≤ xs.size) :
    slice xs i j ++ xs.toList.drop j = xs.toList.drop i := by
  have room : i ≤ (xs.toList.take j).length := by
    rw [List.length_take, Array.length_toList]
    omega
  rw [slice, ← List.drop_append_of_le_length room, List.take_append_drop]

theorem slice_append (xs : Array α) (first : i ≤ j) (second : j ≤ k) (within : k ≤ xs.size) :
    slice xs i j ++ slice xs j k = slice xs i k := by
  have front := slice_append_drop xs first (Nat.le_trans second within)
  rw [← slice_append_drop xs second within,
    ← slice_append_drop xs (Nat.le_trans first second) within, ← List.append_assoc] at front
  exact List.append_cancel_right front

theorem Alike.slice_eq (alike : Alike a b i j n) : slice a i (i + n) = slice b j (j + n) := by
  apply List.ext_getElem?
  intro k
  simp only [getElem?_slice, Nat.add_lt_add_iff_left]
  split
  · rename_i bound
    exact alike k bound
  · rfl

theorem Alike.drop_eq (alike : Alike a b i j n) (aEnd : i + n = a.size) (bEnd : j + n = b.size) :
    a.toList.drop i = b.toList.drop j := by
  have equal := alike.slice_eq
  rw [aEnd, bEnd] at equal
  simpa only [slice, ← Array.length_toList, List.take_length] using equal

/-- The stretch of `n` equal lines from lines `i` and `j` on. -/
def Stretch.ofEqual (i j n : Nat) : Stretch := ⟨true, i, i + n, j, j + n⟩

/-- A stretch within both sequences; if it is said to be equal, it is. -/
structure Stretch.Valid (a b : Array α) (s : Stretch) : Prop where
  aOrder : s.a₁ ≤ s.a₂
  bOrder : s.b₁ ≤ s.b₂
  aWithin : s.a₂ ≤ a.size
  bWithin : s.b₂ ≤ b.size
  same : s.equal = true → ∃ i j n, s = .ofEqual i j n ∧ Alike a b i j n

theorem Alike.valid (alike : Alike a b i j n) (aWithin : i + n ≤ a.size)
    (bWithin : j + n ≤ b.size) :
    (Stretch.ofEqual i j n).Valid a b :=
  ⟨Nat.le_add_right i n, Nat.le_add_right j n, aWithin, bWithin, fun _ => ⟨i, j, n, rfl, alike⟩⟩

/-- Stretches that follow each other directly, from lines `i` and `j` to lines `p` and `q`. -/
def Spans (a b : Array α) (i j : Nat) : List Stretch → Nat → Nat → Prop
  | [], p, q => i = p ∧ j = q
  | s :: ss, p, q => s.a₁ = i ∧ s.b₁ = j ∧ s.Valid a b ∧ Spans a b s.a₂ s.b₂ ss p q

theorem Spans.append (first : Spans a b i j ss k l) (second : Spans a b k l ts p q) :
    Spans a b i j (ss ++ ts) p q := by
  induction ss generalizing i j with
  | nil =>
    obtain ⟨rfl, rfl⟩ := first
    exact second
  | cons s ss ih =>
    obtain ⟨rfl, rfl, valid, rest⟩ := first
    exact ⟨rfl, rfl, valid, ih rest⟩

theorem Spans.snoc {group : List Stretch} (spans : Spans a b i j group.reverse s.a₁ s.b₁)
    (valid : s.Valid a b) : Spans a b i j (s :: group).reverse s.a₂ s.b₂ := by
  rw [List.reverse_cons]
  exact spans.append ⟨rfl, rfl, valid, rfl, rfl⟩

theorem Spans.split (spans : Spans a b i j (ss ++ ts) p q) :
    ∃ k l, Spans a b i j ss k l ∧ Spans a b k l ts p q := by
  induction ss generalizing i j with
  | nil => exact ⟨i, j, ⟨rfl, rfl⟩, spans⟩
  | cons s ss ih =>
    obtain ⟨rfl, rfl, valid, rest⟩ := spans
    obtain ⟨k, l, first, second⟩ := ih rest
    exact ⟨k, l, ⟨rfl, rfl, valid, first⟩, second⟩

theorem Spans.le (spans : Spans a b i j ss p q) : i ≤ p ∧ j ≤ q := by
  induction ss generalizing i j with
  | nil => exact ⟨Nat.le_of_eq spans.1, Nat.le_of_eq spans.2⟩
  | cons s ss ih =>
    obtain ⟨rfl, rfl, valid, rest⟩ := spans
    exact ⟨Nat.le_trans valid.aOrder (ih rest).1, Nat.le_trans valid.bOrder (ih rest).2⟩

theorem gap_spans (aOrder : i ≤ p) (bOrder : j ≤ q) (aWithin : p ≤ a.size) (bWithin : q ≤ b.size) :
    Spans a b i j (if i < p ∨ j < q then [⟨false, i, p, j, q⟩] else []) p q := by
  split
  · exact ⟨rfl, rfl, ⟨aOrder, bOrder, aWithin, bWithin, nofun⟩, rfl, rfl⟩
  · exact ⟨by omega, by omega⟩

theorem same_spans {r : Range} {m : Block} (within : m.Within a b r) (aHigh : r.aHigh ≤ a.size)
    (bHigh : r.bHigh ≤ b.size) :
    Spans a b m.a m.b (if m.size = 0 then [] else [⟨true, m.a, m.a + m.size, m.b, m.b + m.size⟩])
      (m.a + m.size) (m.b + m.size) := by
  split
  · rename_i empty
    exact ⟨by omega, by omega⟩
  · have aWithin := Nat.le_trans within.aHigh aHigh
    have bWithin := Nat.le_trans within.bHigh bHigh
    exact ⟨rfl, rfl, Alike.valid within.equal aWithin bWithin, rfl, rfl⟩

theorem stretchesFrom_spans {ms : List Block} (chained : Chained a b ⟨i, a.size, j, b.size⟩ ms) :
    Spans a b i j (stretchesFrom i j (ms ++ [⟨a.size, b.size, 0⟩])) a.size b.size := by
  induction ms generalizing i j with
  | nil =>
    have gap := gap_spans (a := a) (b := b) chained.a chained.b (Nat.le_refl _) (Nat.le_refl _)
    simpa [stretchesFrom] using gap
  | cons m ms ih =>
    obtain ⟨within, rest⟩ := chained
    have aWithin := Nat.le_trans (Nat.le_add_right _ _) within.aHigh
    have bWithin := Nat.le_trans (Nat.le_add_right _ _) within.bHigh
    have gap := gap_spans within.aLow within.bLow aWithin bWithin
    exact (gap.append (same_spans within (Nat.le_refl _) (Nat.le_refl _))).append (ih rest)

theorem olderLines_append (ls ms : List (Mark × α)) :
    olderLines (ls ++ ms) = olderLines ls ++ olderLines ms := by
  simp only [olderLines, List.filter_append, List.map_append]

theorem newerLines_append (ls ms : List (Mark × α)) :
    newerLines (ls ++ ms) = newerLines ls ++ newerLines ms := by
  simp only [newerLines, List.filter_append, List.map_append]

theorem olderLines_map (mark : Mark) (xs : List α) :
    olderLines (xs.map (mark, ·)) = if mark = .added then [] else xs := by
  cases mark <;> simp [olderLines, List.filter_map, Function.comp_def]

theorem newerLines_map (mark : Mark) (xs : List α) :
    newerLines (xs.map (mark, ·)) = if mark = .removed then [] else xs := by
  cases mark <;> simp [newerLines, List.filter_map, Function.comp_def]

theorem Stretch.olderLines_eq (a b : Array α) (s : Stretch) :
    olderLines (s.lines a b) = slice a s.a₁ s.a₂ := by
  unfold Stretch.lines
  split
  · simp [olderLines_map]
  · simp [olderLines_append, olderLines_map]

theorem Stretch.Valid.newerLines_eq (valid : s.Valid a b) :
    newerLines (s.lines a b) = slice b s.b₁ s.b₂ := by
  unfold Stretch.lines
  split
  · rename_i equal
    obtain ⟨i, j, n, rfl, alike⟩ := valid.same equal
    simp [newerLines_map, Stretch.ofEqual, alike.slice_eq]
  · simp [newerLines_append, newerLines_map]

theorem Spans.lines_eq (spans : Spans a b i j ss p q) (aEnd : p ≤ a.size) (bEnd : q ≤ b.size) :
    olderLines (ss.flatMap (Stretch.lines a b)) = slice a i p ∧
      newerLines (ss.flatMap (Stretch.lines a b)) = slice b j q := by
  induction ss generalizing i j with
  | nil =>
    obtain ⟨rfl, rfl⟩ := spans
    simp [olderLines, newerLines, slice]
  | cons s ss ih =>
    obtain ⟨rfl, rfl, valid, rest⟩ := spans
    obtain ⟨older, newer⟩ := ih rest
    obtain ⟨aOrder, bOrder⟩ := rest.le
    rw [List.flatMap_cons, olderLines_append, newerLines_append, older, newer, s.olderLines_eq,
      valid.newerLines_eq, slice_append a valid.aOrder aOrder aEnd,
      slice_append b valid.bOrder bOrder bEnd]
    exact ⟨rfl, rfl⟩

theorem Spans.getLast (spans : Spans a b i j (s :: ss) p q) :
    ((s :: ss).getLast (List.cons_ne_nil s ss)).a₂ = p ∧
    ((s :: ss).getLast (List.cons_ne_nil s ss)).b₂ = q := by
  induction ss generalizing i j s with
  | nil =>
    obtain ⟨-, -, -, rest⟩ := spans
    exact rest
  | cons t ss ih =>
    obtain ⟨-, -, -, rest⟩ := spans
    rw [List.getLast_cons (List.cons_ne_nil t ss)]
    exact ih rest

theorem Spans.ofGroup (spans : Spans a b i j ss p q) (some : ss ≠ []) (aEnd : p ≤ a.size)
    (bEnd : q ≤ b.size) :
    ∃ h, Hunk.ofGroup a b ss = .some h ∧ h.aStart = i ∧ h.aLength = p - i ∧ h.bStart = j ∧
      h.bLength = q - j ∧ olderLines h.lines = slice a i p ∧ newerLines h.lines = slice b j q := by
  obtain ⟨s, ss, rfl⟩ := List.exists_cons_of_ne_nil some
  obtain ⟨aLast, bLast⟩ := spans.getLast
  obtain ⟨older, newer⟩ := spans.lines_eq aEnd bEnd
  obtain ⟨rfl, rfl, -, -⟩ := spans
  exact ⟨_, rfl, rfl, by rw [aLast], rfl, by rw [bLast], older, newer⟩

/-- A group of stretches behind lines that are the same makes a hunk. -/
theorem Describes.group {g : List Stretch} {gs : List (List Stretch)}
    (spans : Spans a b (i + n) (j + n) g p q) (some : g ≠ []) (alike : Alike a b i j n)
    (aEnd : p ≤ a.size) (bEnd : q ≤ b.size)
    (later : Describes p q (a.toList.drop p) (b.toList.drop q) (gs.filterMap (Hunk.ofGroup a b))) :
    Describes i j (a.toList.drop i) (b.toList.drop j) ((g :: gs).filterMap (Hunk.ofGroup a b)) := by
  obtain ⟨aOrder, bOrder⟩ := spans.le
  have aWithin := Nat.le_trans aOrder aEnd
  have bWithin := Nat.le_trans bOrder bEnd
  obtain ⟨h, made, aStart, aLength, bStart, bLength, older, newer⟩ := spans.ofGroup some aEnd bEnd
  have between := slice_length a (Nat.le_add_right i n) aWithin
  rw [List.filterMap_cons_some made, ← slice_append_drop a (Nat.le_add_right i n) aWithin,
    ← slice_append_drop b (Nat.le_add_right j n) bWithin, ← alike.slice_eq,
    ← slice_append_drop a aOrder aEnd, ← slice_append_drop b bOrder bEnd, ← older, ← newer]
  refine .hunk _ h (by omega) ?_ (by omega) ?_ ?_
  · rw [older, slice_length a aOrder aEnd, aLength]
  · rw [newer, slice_length b bOrder bEnd, bLength]
  · rwa [aStart, aLength, bStart, bLength, Nat.add_sub_of_le aOrder, Nat.add_sub_of_le bOrder]

theorem head_ofEqual (i j n : Nat) :
    (Stretch.ofEqual i j n).head = .ofEqual i j (min n context) := by
  simp only [Stretch.head, Stretch.ofEqual, Nat.add_min_add_left]

theorem tail_ofEqual (i j n : Nat) :
    (Stretch.ofEqual i j n).tail = .ofEqual (i + (n - context)) (j + (n - context))
    (n - (n - context)) := by
  simp only [Stretch.tail, Stretch.ofEqual, Stretch.mk.injEq, true_and]
  omega

/-- The hunks of stretches, of which some have been collected, behind `n` lines that are the same.
The lines behind the last stretch are the same, too. -/
theorem groupsFrom_describes {group : List Stretch}
    (spans : Spans a b (i + n) (j + n) (group.reverse ++ ss) p q) (alike : Alike a b i j n)
    (aEnd : p + o = a.size) (bEnd : q + o = b.size) (rest : Alike a b p q o) :
    Describes i j (a.toList.drop i) (b.toList.drop j)
      ((groupsFrom group ss).filterMap (Hunk.ofGroup a b)) := by
  have aWithin : p ≤ a.size := aEnd ▸ Nat.le_add_right p o
  have bWithin : q ≤ b.size := bEnd ▸ Nat.le_add_right q o
  induction ss generalizing group i j n with
  | nil =>
    have last : Describes p q (a.toList.drop p) (b.toList.drop q) [] := by
      rw [rest.drop_eq aEnd bEnd]
      exact .same _
    rw [List.append_nil] at spans
    unfold groupsFrom
    split
    · obtain ⟨rfl, rfl⟩ := spans
      rw [(alike.append rest).drop_eq (by omega) (by omega)]
      exact .same _
    · split
      · rename_i equal
        obtain ⟨aFirst, bFirst, valid, rfl, rfl⟩ := spans
        obtain ⟨i', j', m, rfl, same⟩ := valid.same equal
        obtain ⟨rfl, rfl⟩ : i' = i + n ∧ j' = j + n := ⟨aFirst, bFirst⟩
        simp only [Stretch.ofEqual] at rest aEnd bEnd
        have all := alike.append (same.append rest)
        rw [all.drop_eq (by omega) (by omega)]
        exact .same _
      · exact .group spans (List.cons_ne_nil _ []) alike aWithin bWithin last
    · rename_i g none single
      exact .group spans (by simpa using none) alike aWithin bWithin last
  | cons s ss ih =>
    unfold groupsFrom
    split
    · -- The stretch is cut: its head closes the group, and its tail opens the next one.
      rename_i cut
      simp only [Bool.and_eq_true, decide_eq_true_eq] at cut
      obtain ⟨equal, long⟩ := cut
      obtain ⟨k, l, front, rfl, rfl, valid, behind⟩ := spans.split
      obtain ⟨k, l, m, rfl, same⟩ := valid.same equal
      obtain ⟨-, -, aLast, bLast, -⟩ := valid
      simp only [Stretch.ofEqual, Nat.add_sub_cancel_left] at long aLast bLast
      obtain ⟨d, rfl⟩ : ∃ d, m = context + d + context := ⟨m - 2 * context, by omega⟩
      rw [head_ofEqual, tail_ofEqual, Nat.min_eq_right (Nat.le_add_left _ _), Nat.add_sub_cancel,
        Nat.add_sub_cancel_left]
      have head : (Stretch.ofEqual k l context).Valid a b :=
        (same.take (by omega)).valid (by omega) (by omega)
      have tail : (Stretch.ofEqual (k + (context + d)) (l + (context + d)) context).Valid a b :=
        same.drop.valid (by omega) (by omega)
      have middle : Alike a b (k + context) (l + context) d :=
        (same.take (Nat.le_add_right _ _)).drop
      have closed : Spans a b (i + n) (j + n) (Stretch.ofEqual k l context :: group).reverse
          (k + context) (l + context) := .snoc front head
      have opened : Spans a b (k + context + d) (l + context + d)
          (Stretch.ofEqual (k + (context + d)) (l + (context + d)) context :: ss) p q := by
        refine ⟨(Nat.add_assoc ..).symm, (Nat.add_assoc ..).symm, tail, ?_⟩
        simpa only [Stretch.ofEqual, Nat.add_assoc] using behind
      exact .group closed (by simp) alike (by omega) (by omega) (ih opened middle)
    · refine ih ?_ alike
      rwa [List.reverse_cons, List.append_assoc]

/-- Cuts an equal stretch at the front. -/
def cutFront (cut : Stretch → Stretch) : List Stretch → List Stretch
  | s :: r => (if s.equal then cut s else s) :: r
  | [] => []

theorem trimEnds_eq (ss : List Stretch) :
    trimEnds ss = (cutFront Stretch.head (cutFront Stretch.tail ss).reverse).reverse := by
  unfold trimEnds cutFront
  cases ss with
  | nil => rfl
  | cons s r =>
    dsimp only
    cases ((if s.equal = true then s.tail else s) :: r).reverse with
    | nil => rfl
    | cons t rest => rfl

theorem Stretch.Valid.tail (valid : s.Valid a b) (equal : s.equal = true) :
    ∃ n, Alike a b s.a₁ s.b₁ n ∧ s.tail.a₁ = s.a₁ + n ∧ s.tail.b₁ = s.b₁ + n ∧
      s.tail.Valid a b := by
  obtain ⟨i, j, n, rfl, alike⟩ := valid.same equal
  obtain ⟨-, -, aWithin, bWithin, -⟩ := valid
  obtain ⟨d, parts⟩ : ∃ d, n = n - context + d := ⟨n - (n - context), by omega⟩
  have front := alike.take (Nat.sub_le n context)
  rw [parts] at alike
  rw [tail_ofEqual, Nat.sub_eq_of_eq_add' parts]
  simp only [Stretch.ofEqual] at aWithin bWithin
  exact ⟨n - context, front, rfl, rfl, alike.drop.valid (by omega) (by omega)⟩

theorem Stretch.Valid.head (valid : s.Valid a b) (equal : s.equal = true) :
    ∃ n, Alike a b s.head.a₂ s.head.b₂ n ∧ s.head.a₂ + n = s.a₂ ∧ s.head.b₂ + n = s.b₂ ∧
      s.head.Valid a b := by
  obtain ⟨i, j, n, rfl, alike⟩ := valid.same equal
  obtain ⟨-, -, aWithin, bWithin, -⟩ := valid
  obtain ⟨d, parts⟩ : ∃ d, n = min n context + d := ⟨n - min n context, by omega⟩
  have front := alike.take (Nat.min_le_left n context)
  rw [parts] at alike
  rw [head_ofEqual]
  simp only [Stretch.ofEqual] at aWithin bWithin ⊢
  exact ⟨d, alike.drop, by omega, by omega, front.valid (by omega) (by omega)⟩

theorem Spans.cutFirst (spans : Spans a b i j ss p q) :
    ∃ n, Alike a b i j n ∧ Spans a b (i + n) (j + n) (cutFront Stretch.tail ss) p q := by
  have untouched : Alike a b i j 0 := fun k none => by cases none
  cases ss with
  | nil => exact ⟨0, untouched, spans⟩
  | cons s ss =>
    obtain ⟨rfl, rfl, valid, rest⟩ := spans
    dsimp only [cutFront]
    split
    · rename_i equal
      obtain ⟨n, alike, aFirst, bFirst, tail⟩ := valid.tail equal
      exact ⟨n, alike, aFirst, bFirst, tail, rest⟩
    · exact ⟨0, untouched, rfl, rfl, valid, rest⟩

theorem Spans.cutLast (spans : Spans a b i j ss.reverse p q) :
    ∃ n x y, Alike a b x y n ∧ x + n = p ∧ y + n = q ∧
      Spans a b i j (cutFront Stretch.head ss).reverse x y := by
  have untouched : Alike a b p q 0 := fun k none => by cases none
  cases ss with
  | nil => exact ⟨0, p, q, untouched, rfl, rfl, spans⟩
  | cons s ss =>
    rw [List.reverse_cons] at spans
    obtain ⟨k, l, front, rfl, rfl, valid, rfl, rfl⟩ := spans.split
    dsimp only [cutFront]
    split
    · rename_i equal
      obtain ⟨n, alike, aLast, bLast, head⟩ := valid.head equal
      exact ⟨n, _, _, alike, aLast, bLast, Spans.snoc (s := s.head) front head⟩
    · exact ⟨0, _, _, untouched, rfl, rfl, front.snoc valid⟩

theorem Spans.trimEnds (spans : Spans a b i j ss p q) :
    ∃ n o x y, Alike a b i j n ∧ Alike a b x y o ∧ x + o = p ∧ y + o = q ∧
      Spans a b (i + n) (j + n) (trimEnds ss) x y := by
  obtain ⟨n, front, spans⟩ := spans.cutFirst
  rw [← List.reverse_reverse (cutFront _ ss)] at spans
  obtain ⟨o, x, y, rest, aEnd, bEnd, spans⟩ := spans.cutLast
  rw [← trimEnds_eq] at spans
  exact ⟨n, o, x, y, front, rest, aEnd, bEnd, spans⟩

theorem stretches_spans [DecidableEq α] (a b : Array α) :
    Spans a b 0 0 (stretches a b) a.size b.size :=
  stretchesFrom_spans (matching_chained a b)

/-- The hunks between two sequences of lines describe how the first becomes the second. -/
theorem hunks_describe [DecidableEq α] (a b : List α) : Describes 0 0 a b (hunks a b) := by
  obtain ⟨n, o, p, q, front, rest, aEnd, bEnd, spans⟩ :=
    (stretches_spans a.toArray b.toArray).trimEnds
  exact groupsFrom_describes (List.nil_append _ ▸ spans) front aEnd bEnd rest

/-- The stretch holds some of the first `n` lines of the older sequence. -/
def Stretch.Holds (n : Nat) (s : Stretch) : Prop := s.a₁ < s.a₂ ∧ s.a₂ ≤ n

theorem Stretch.Holds.head (holds : s.Holds n) : s.head.Holds n := by
  simp only [Stretch.Holds, Stretch.head, context] at holds ⊢
  omega

theorem Stretch.Holds.tail (holds : s.Holds n) : s.tail.Holds n := by
  simp only [Stretch.Holds, Stretch.tail, context] at holds ⊢
  omega

theorem Spans.valid_of_mem (spans : Spans a b i j ss p q) (member : s ∈ ss) : s.Valid a b := by
  induction ss generalizing i j with
  | nil => cases member
  | cons t ss ih =>
    obtain ⟨-, -, valid, rest⟩ := spans
    rcases List.mem_cons.mp member with rfl | later
    · exact valid
    · exact ih rest later

theorem Spans.holds (spans : Spans a b i j ss p q) (room : i < p) : ∃ s ∈ ss, s.Holds a.size := by
  induction ss generalizing i j with
  | nil => exact absurd spans.1 (Nat.ne_of_lt room)
  | cons s ss ih =>
    obtain ⟨rfl, rfl, valid, rest⟩ := spans
    rcases Nat.lt_or_eq_of_le valid.aOrder with some | none
    · exact ⟨s, List.mem_cons_self, some, valid.aWithin⟩
    · obtain ⟨t, member, holds⟩ := ih rest (none ▸ room)
      exact ⟨t, List.mem_cons_of_mem s member, holds⟩

theorem cutFront_holds {cut : Stretch → Stretch} (keeps : ∀ s, s.Holds n → (cut s).Holds n)
    (some : ∃ s ∈ ss, s.Holds n) : ∃ s ∈ cutFront cut ss, s.Holds n := by
  obtain ⟨s, member, holds⟩ := some
  cases ss with
  | nil => cases member
  | cons t ss =>
    rcases List.mem_cons.mp member with rfl | later
    · refine ⟨_, List.mem_cons_self, ?_⟩
      split
      · exact keeps s holds
      · exact holds
    · exact ⟨s, List.mem_cons_of_mem _ later, holds⟩

theorem trimEnds_holds (some : ∃ s ∈ ss, s.Holds n) : ∃ s ∈ trimEnds ss, s.Holds n := by
  have first := cutFront_holds (fun _ => Stretch.Holds.tail) some
  simp only [trimEnds_eq, List.mem_reverse]
  refine cutFront_holds (fun _ => Stretch.Holds.head) ?_
  simpa only [List.mem_reverse] using first

-- A stretch that is cut leaves lines on both sides of the cut.
theorem groupsFrom_holds {group g : List Stretch} (within : ∀ s ∈ ss, s.a₂ ≤ n)
    (some : ∃ s ∈ group.reverse ++ ss, s.Holds n) (member : g ∈ groupsFrom group ss) :
    ∃ s ∈ g, s.Holds n := by
  induction ss generalizing group with
  | nil =>
    rw [List.append_nil] at some
    unfold groupsFrom at member
    split at member
    · cases member
    · split at member
      · cases member
      · rwa [List.mem_singleton.mp member]
    · rwa [List.mem_singleton.mp member]
  | cons s ss ih =>
    have later := fun t inside => within t (List.mem_cons_of_mem s inside)
    unfold groupsFrom at member
    split at member
    · rename_i cut
      simp only [Bool.and_eq_true, decide_eq_true_eq] at cut
      have holds : s.Holds n := ⟨by omega, within s List.mem_cons_self⟩
      rcases List.mem_cons.mp member with rfl | member
      · exact ⟨s.head, by simp, holds.head⟩
      · exact ih later ⟨s.tail, by simp, holds.tail⟩ member
    · refine ih later ?_ member
      rwa [List.reverse_cons, List.append_assoc]

theorem Hunk.lines_ofGroup {g : List Stretch} {h : Hunk α} (made : Hunk.ofGroup a b g = some h) :
    h.lines = g.flatMap (Stretch.lines a b) := by
  cases g with
  | nil => cases made
  | cons s g =>
    cases made
    rfl

/-- No hunk consists of new lines only, unless all lines are new. -/
theorem olderLines_ne_nil [DecidableEq α] {a b : List α} {h : Hunk α} (some : a ≠ [])
    (member : h ∈ hunks a b) : olderLines h.lines ≠ [] := by
  obtain ⟨g, grouped, made⟩ := List.mem_filterMap.mp member
  have spans := stretches_spans a.toArray b.toArray
  have lines := trimEnds_holds (spans.holds (List.length_pos_iff.mpr some))
  obtain ⟨_, _, _, _, -, -, -, -, trimmed⟩ := spans.trimEnds
  obtain ⟨s, inside, before, within⟩ :=
    groupsFrom_holds (g := g) (fun s inside => (trimmed.valid_of_mem inside).aWithin)
      (by simpa using lines) grouped
  have length := slice_length a.toArray (Nat.le_of_lt before) within
  have older : slice a.toArray s.a₁ s.a₂ ≠ [] := List.ne_nil_of_length_pos (by omega)
  obtain ⟨front, back, rfl⟩ := List.append_of_mem inside
  rw [Hunk.lines_ofGroup made, List.flatMap_append, List.flatMap_cons, olderLines_append,
    olderLines_append, s.olderLines_eq]
  simp [older]

theorem Describes.aLength_of_mem {older newer : List α} {h : Hunk α} {hs : List (Hunk α)}
    (describes : Describes i j older newer hs) (member : h ∈ hs) :
    h.aLength = (olderLines h.lines).length := by
  induction describes with
  | same => cases member
  | hunk between g aStart aLength bStart bLength later ih =>
    rcases List.mem_cons.mp member with rfl | behind
    · exact aLength
    · exact ih behind

theorem aLength_ne_zero [DecidableEq α] {a b : List α} {h : Hunk α} (some : a ≠ [])
    (member : h ∈ hunks a b) :
    h.aLength ≠ 0 := by
  rw [(hunks_describe a b).aLength_of_mem member]
  exact Nat.ne_of_gt (List.length_pos_iff.mpr (olderLines_ne_nil some member))

end TacBench.Diff
