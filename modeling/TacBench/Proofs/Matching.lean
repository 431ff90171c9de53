import TacBench.Diff.Matching

/-! Matching blocks hold equal lines and lie one behind the other in both sequences, whichever lines
are passed over as too frequent. -/
namespace TacBench.Diff

variable {α : Type} {a b : Array α} {r : Range} {m best : Block} {i : Nat} {row : Row}
  {ms ns : List Block}

/-- Both ends of the range are in order. -/
structure Range.Proper (r : Range) : Prop where
  a : r.aLow ≤ r.aHigh
  b : r.bLow ≤ r.bHigh

/-- The block lies in the range, and its lines are equal. -/
structure Block.Within (a b : Array α) (r : Range) (m : Block) : Prop where
  aLow : r.aLow ≤ m.a
  aHigh : m.a + m.size ≤ r.aHigh
  bLow : r.bLow ≤ m.b
  bHigh : m.b + m.size ≤ r.bHigh
  equal : ∀ k < m.size, a[m.a + k]? = b[m.b + k]?

/-- The lengths in a row are those of matches that end before line `i` of the first sequence. -/
def Row.EndsBefore (a b : Array α) (r : Range) (i : Nat) (row : Row) : Prop :=
  ∀ j k, (j, k) ∈ row → ∃ x y, x + k = i ∧ y + k = j + 1 ∧ Block.Within a b r ⟨x, y, k⟩

/-- The part of a range behind a block. -/
def Range.behind (r : Range) (m : Block) : Range :=
  { r with aLow := m.a + m.size, bLow := m.b + m.size }

/-- Blocks of equal lines within a range, each behind the one before. -/
def Chained (a b : Array α) (r : Range) : List Block → Prop
  | [] => r.Proper
  | m :: ms => m.Within a b r ∧ Chained a b (r.behind m) ms

theorem Block.Within.snoc {x y k : Nat} (within : Block.Within a b r ⟨x, y, k⟩)
    (aHigh : x + k < r.aHigh) (bHigh : y + k < r.bHigh) (equal : a[x + k]? = b[y + k]?) :
    Block.Within a b r ⟨x, y, k + 1⟩ where
  aLow := within.aLow
  aHigh := aHigh
  bLow := within.bLow
  bHigh := bHigh
  equal n bound := by
    rcases Nat.lt_or_eq_of_le (Nat.le_of_lt_succ bound) with inside | rfl
    · exact within.equal n inside
    · exact equal

theorem Block.Within.cons {x y k : Nat} (within : Block.Within a b r ⟨x + 1, y + 1, k⟩)
    (aLow : r.aLow ≤ x) (bLow : r.bLow ≤ y) (equal : a[x]? = b[y]?) :
    Block.Within a b r ⟨x, y, k + 1⟩ := by
  obtain ⟨-, aHigh, -, bHigh, inside⟩ := within
  dsimp only at aHigh bHigh inside
  refine ⟨aLow, by dsimp only; omega, bLow, by dsimp only; omega, fun n bound => ?_⟩
  cases n with
  | zero => exact equal
  | succ n =>
    have later := inside n (Nat.lt_of_succ_lt_succ bound)
    rwa [Nat.add_assoc, Nat.add_comm 1, Nat.add_assoc, Nat.add_comm 1] at later

theorem Block.Within.empty (proper : r.Proper) : Block.Within a b r ⟨r.aLow, r.bLow, 0⟩ where
  aLow := Nat.le_refl _
  aHigh := proper.a
  bLow := Nat.le_refl _
  bHigh := proper.b
  equal k none := by cases none

theorem Block.Within.join {n : Block} (first : m.Within a b r) (second : n.Within a b (r.behind m))
    (adjacent : m.a + m.size = n.a ∧ m.b + m.size = n.b) :
    Block.Within a b r ⟨m.a, m.b, m.size + n.size⟩ := by
  obtain ⟨aLow, -, bLow, -, front⟩ := first
  obtain ⟨-, aHigh, -, bHigh, rest⟩ := second
  dsimp only [Range.behind] at aHigh bHigh
  refine ⟨aLow, by dsimp only; omega, bLow, by dsimp only; omega, fun k bound => ?_⟩
  rcases Nat.lt_or_ge k m.size with inside | later
  · exact front k inside
  · obtain ⟨d, rfl⟩ := Nat.exists_eq_add_of_le later
    have equal := rest d (Nat.lt_of_add_lt_add_left bound)
    rwa [← adjacent.1, ← adjacent.2, Nat.add_assoc, Nat.add_assoc] at equal

/-- The length of the match that ends with a line and line `j`, if the row is that of the line
before. -/
def matchLength (row : Row) (j : Nat) : Nat :=
  (if j = 0 then 0 else (row.lookup (j - 1)).getD 0) + 1

def takeHit (i : Nat) (row : Row) (taken : Row × Block) (j : Nat) : Row × Block :=
  let k := matchLength row j
  ((j, k) :: taken.1, if taken.2.size < k then ⟨i + 1 - k, j + 1 - k, k⟩ else taken.2)

theorem extendRow_eq (r : Range) (i : Nat) (hits : List Nat) (row : Row) (best : Block) :
    extendRow r i hits row best =
      let taken := (hits.filter fun j => r.bLow ≤ j && j < r.bHigh).foldl (takeHit i row) ([], best)
      (taken.1.reverse, taken.2) := rfl

/-- A match that ends with lines `i` and `j` goes on from the one that ends just before both. -/
theorem Row.EndsBefore.extend {j : Nat} (ends : row.EndsBefore a b r i) (aLow : r.aLow ≤ i)
    (aHigh : i < r.aHigh) (bLow : r.bLow ≤ j) (bHigh : j < r.bHigh) (equal : a[i]? = b[j]?) :
    ∃ x y, x + matchLength row j = i + 1 ∧ y + matchLength row j = j + 1 ∧
      Block.Within a b r ⟨x, y, matchLength row j⟩ := by
  have alone : Block.Within a b r ⟨i, j, 0 + 1⟩ :=
    ⟨aLow, aHigh, bLow, bHigh, fun k bound => by rwa [Nat.lt_one_iff.mp bound]⟩
  unfold matchLength
  split
  · exact ⟨i, j, rfl, rfl, alone⟩
  · rename_i later
    cases found : row.lookup (j - 1) with
    | none => exact ⟨i, j, rfl, rfl, alone⟩
    | some k =>
      obtain ⟨front, rest, parts, -⟩ := List.lookup_eq_some_iff.mp found
      obtain ⟨x, y, rfl, last, within⟩ := ends (j - 1) k (by simp [parts])
      have same : y + k = j := by omega
      subst same
      exact ⟨x, y, rfl, rfl, within.snoc aHigh bHigh equal⟩

/-- Rows and the best block as the hits of line `i` are taken. -/
theorem foldl_takeHit_within {hits : List Nat} {done : Row} (ends : row.EndsBefore a b r i)
    (aLow : r.aLow ≤ i) (aHigh : i < r.aHigh)
    (inside : ∀ j ∈ hits, r.bLow ≤ j ∧ j < r.bHigh ∧ a[i]? = b[j]?)
    (collected : done.EndsBefore a b r (i + 1)) (found : best.Within a b r) :
    (hits.foldl (takeHit i row) (done, best)).1.EndsBefore a b r (i + 1) ∧
      (hits.foldl (takeHit i row) (done, best)).2.Within a b r := by
  induction hits generalizing done best with
  | nil => exact ⟨collected, found⟩
  | cons j hits ih =>
    obtain ⟨bLow, bHigh, equal⟩ := inside j List.mem_cons_self
    obtain ⟨x, y, lastA, lastB, within⟩ := ends.extend aLow aHigh bLow bHigh equal
    refine ih (fun t member => inside t (List.mem_cons_of_mem j member)) ?_ ?_
    · intro t k member
      rcases List.mem_cons.mp member with same | old
      · cases same
        exact ⟨x, y, lastA, lastB, within⟩
      · exact collected t k old
    · dsimp only [takeHit]
      split
      · rwa [← lastA, ← lastB, Nat.add_sub_cancel, Nat.add_sub_cancel]
      · exact found

theorem extendRow_within {hits : List Nat} (ends : row.EndsBefore a b r i)
    (found : best.Within a b r) (aLow : r.aLow ≤ i) (aHigh : i < r.aHigh)
    (equal : ∀ j ∈ hits, a[i]? = b[j]?) :
    (extendRow r i hits row best).1.EndsBefore a b r (i + 1) ∧
      (extendRow r i hits row best).2.Within a b r := by
  have inside : ∀ j ∈ hits.filter fun j => r.bLow ≤ j && j < r.bHigh,
      r.bLow ≤ j ∧ j < r.bHigh ∧ a[i]? = b[j]? := by
    intro j member
    obtain ⟨hit, bounds⟩ := List.mem_filter.mp member
    simp only [Bool.and_eq_true, decide_eq_true_eq] at bounds
    exact ⟨bounds.1, bounds.2, equal j hit⟩
  have none : Row.EndsBefore a b r (i + 1) [] := fun j k member => by cases member
  obtain ⟨collected, within⟩ := foldl_takeHit_within ends aLow aHigh inside none found
  rw [extendRow_eq]
  exact ⟨fun j k member => collected j k (List.mem_reverse.mp member), within⟩

theorem Chained.proper (chained : Chained a b r ms) : r.Proper := by
  cases ms with
  | nil => exact chained
  | cons m ms =>
    obtain ⟨⟨aLow, aHigh, bLow, bHigh, -⟩, -⟩ := chained
    exact ⟨by omega, by omega⟩

theorem Chained.earlier {r' : Range} (chained : Chained a b r ms) (aLow : r'.aLow ≤ r.aLow)
    (bLow : r'.bLow ≤ r.bLow) (aHigh : r'.aHigh = r.aHigh) (bHigh : r'.bHigh = r.bHigh) :
    Chained a b r' ms := by
  cases ms with
  | nil =>
    obtain ⟨first, second⟩ := chained
    exact ⟨by omega, by omega⟩
  | cons m ms =>
    obtain ⟨⟨aLow', aHigh', bLow', bHigh', equal⟩, rest⟩ := chained
    refine ⟨⟨by omega, by omega, by omega, by omega, equal⟩, ?_⟩
    rwa [Range.behind, aHigh, bHigh]

theorem Chained.append {x y : Nat} {r : Range}
    (first : Chained a b { r with aHigh := x, bHigh := y } ms)
    (second : Chained a b { r with aLow := x, bLow := y } ns) : Chained a b r (ms ++ ns) := by
  induction ms generalizing r with
  | nil => exact second.earlier first.a first.b rfl rfl
  | cons m ms ih =>
    obtain ⟨⟨aLow, aHigh, bLow, bHigh, equal⟩, rest⟩ := first
    obtain ⟨aEnd, bEnd⟩ := second.proper
    dsimp only at aLow aHigh bLow bHigh aEnd bEnd
    exact ⟨⟨aLow, by omega, bLow, by omega, equal⟩, ih rest second⟩

theorem joinBlocks_chained (chained : Chained a b r ms) : Chained a b r (joinBlocks ms) := by
  induction ms generalizing r with
  | nil => exact chained
  | cons m ms ih =>
    obtain ⟨within, rest⟩ := chained
    have joined := ih rest
    unfold joinBlocks
    generalize joinBlocks ms = ns at joined
    cases ns with
    | nil => exact ⟨within, joined⟩
    | cons n ns =>
      obtain ⟨next, behind⟩ := joined
      dsimp only
      split
      · rename_i adjacent
        refine ⟨within.join next adjacent, ?_⟩
        simp only [Range.behind, ← adjacent.1, ← adjacent.2, Nat.add_assoc] at behind ⊢
        exact behind
      · exact ⟨within, next, behind⟩

/-- Every place at which a match may start is that of an equal line. -/
def Anchored (a b : Array α) (starts : Array (List Nat)) : Prop :=
  ∀ i j : Nat, j ∈ starts[i]?.getD [] → a[i]? = b[j]?

variable {starts : Array (List Nat)}

/-- The best block after some lines of the range, of which `i` is the first. -/
theorem foldl_extendRow_within (anchored : Anchored a b starts) (n : Nat)
    (ends : row.EndsBefore a b r i) (found : best.Within a b r) (aLow : r.aLow ≤ i)
    (aHigh : i + n ≤ r.aHigh) :
    ((List.range' i n).foldl (fun (acc : Row × Block) i =>
      extendRow r i (starts[i]?.getD []) acc.1 acc.2) (row, best)).2.Within a b r := by
  induction n generalizing i row best with
  | zero => exact found
  | succ n ih =>
    rw [List.range'_succ, List.foldl_cons]
    obtain ⟨ends, found⟩ := extendRow_within ends found aLow (by omega) (anchored i)
    exact ih ends found (by omega) (by omega)

variable [DecidableEq α]

theorem growBack_within (fuel : Nat) (within : m.Within a b r) :
    (growBack a b r fuel m).Within a b r := by
  fun_induction growBack a b r fuel m with
  | case1 m => exact within
  | case2 fuel m grows ih =>
    obtain ⟨aLow, bLow, equal⟩ := grows
    refine ih (.cons ?_ (by omega) (by omega) equal)
    rwa [Nat.sub_add_cancel (by omega), Nat.sub_add_cancel (by omega)]
  | case3 fuel m _ => exact within

theorem growOn_within (fuel : Nat) (within : m.Within a b r) :
    (growOn a b r fuel m).Within a b r := by
  fun_induction growOn a b r fuel m with
  | case1 m => exact within
  | case2 fuel m grows ih => exact ih (within.snoc grows.1 grows.2.1 grows.2.2)
  | case3 fuel m _ => exact within

theorem longest_within (anchored : Anchored a b starts) (proper : r.Proper) :
    (longest a b starts r).Within a b r := by
  have none : Row.EndsBefore a b r r.aLow [] := fun j k member => by cases member
  have room : r.aLow + (r.aHigh - r.aLow) ≤ r.aHigh := by
    have := proper.a
    omega
  have best := foldl_extendRow_within anchored (r.aHigh - r.aLow) none (.empty proper)
    (Nat.le_refl _) room
  exact growOn_within _ (growBack_within _ best)

theorem blocksIn_chained (anchored : Anchored a b starts) (fuel : Nat) (proper : r.Proper) :
    Chained a b r (blocksIn a b starts fuel r) := by
  induction fuel generalizing r with
  | zero => exact proper
  | succ fuel ih =>
    have within := longest_within anchored proper
    unfold blocksIn
    dsimp only
    generalize longest a b starts r = m at within ⊢
    obtain ⟨aLow, aHigh, bLow, bHigh, equal⟩ := within
    split
    · exact proper
    · refine Chained.append (x := m.a) (y := m.b) ?_
        ⟨⟨Nat.le_refl _, aHigh, Nat.le_refl _, bHigh, equal⟩, ?_⟩
      · split
        · exact ih ⟨aLow, bLow⟩
        · exact ⟨aLow, bLow⟩
      · split
        · exact ih ⟨aHigh, bHigh⟩
        · exact ⟨aHigh, bHigh⟩

theorem anchors_anchored (a b : Array α) : Anchored a b (anchors a b) := by
  intro i j member
  simp only [anchors, Array.getElem?_map] at member
  cases found : a[i]? with
  | none => simp [found] at member
  | some line =>
    simp only [found, Option.map_some, Option.getD_some] at member
    split at member
    · cases member
    · obtain ⟨⟨same, k⟩, hit, rfl⟩ := List.mem_map.mp member
      obtain ⟨indexed, equal⟩ := List.mem_filter.mp hit
      have placed : b.toList[k]? = some same := List.mem_zipIdx_iff_getElem?.mp indexed
      have equal : same = line := eq_of_beq equal
      rw [← Array.getElem?_toList, placed, equal]

theorem matching_chained (a b : Array α) : Chained a b ⟨0, a.size, 0, b.size⟩ (matching a b) :=
  joinBlocks_chained (blocksIn_chained (anchors_anchored a b) _ ⟨Nat.zero_le _, Nat.zero_le _⟩)

end TacBench.Diff
