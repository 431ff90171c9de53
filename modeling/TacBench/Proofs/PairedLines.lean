import TacBench.Proofs.MarkedLines

/-! Pairs of removed and added lines. Pairing goes in rounds. Each of them takes away one removed
line and one added line between two kept ones, so that there are no more rounds than removed lines
and what a text gains by its lines stays the same. The lines that are told to have come and gone
therefore account for the length of the new text. -/
namespace TacBench.Editor

open Diff Breakpoints

variable {ms ns rs us vs : List PairMark} {k n : Nat}

/-- The marks that a round replaces: a removed line, pairs only, and an added line. -/
def pairable (n : Nat) : List PairMark := .removed :: (List.replicate n .paired ++ [.added])

theorem pairsThenAdded_eq_some :
    pairsThenAdded ms = some (n, rs) ↔ .removed :: ms = pairable n ++ rs := by
  induction ms generalizing n with
  | nil => simp [pairsThenAdded, pairable]
  | cons m ms ih =>
    simp only [pairable, List.cons_append, List.append_assoc, List.nil_append, List.cons.injEq,
      true_and] at ih ⊢
    cases m with
    | added => cases n <;> simp [pairsThenAdded, List.replicate_succ]
    | paired => cases n <;> simp [pairsThenAdded, List.replicate_succ, ih]
    | kept | removed => cases n <;> simp [pairsThenAdded, List.replicate_succ]

/-- A round turns the marks that it replaces into one pair more. -/
theorem pairOnce_eq_some (round : pairOnce ms = some ns) :
    ∃ front n back, ms = front ++ (pairable n ++ back) ∧
      ns = front ++ (List.replicate (n + 1) .paired ++ back) := by
  induction ms generalizing ns with
  | nil => cases round
  | cons m ms ih =>
    have later (rest : (pairOnce ms).map (m :: ·) = some ns) :
        ∃ front n back, m :: ms = front ++ (pairable n ++ back) ∧
          ns = front ++ (List.replicate (n + 1) .paired ++ back) := by
      obtain ⟨rs, found, rfl⟩ := Option.map_eq_some_iff.mp rest
      obtain ⟨front, n, back, rfl, rfl⟩ := ih found
      exact ⟨m :: front, n, back, rfl, rfl⟩
    cases m with
    | removed =>
      rw [pairOnce] at round
      split at round
      · rename_i n rs found
        cases round
        exact ⟨[], n, rs, pairsThenAdded_eq_some.mp found, rfl⟩
      · exact later round
    | kept | added | paired => exact later round

/-- The rounds end only where there is nothing to replace. -/
theorem not_pairable (settled : pairOnce ms = none) (front : List PairMark) (n : Nat)
    (back : List PairMark) :
    ms ≠ front ++ (pairable n ++ back) := by
  induction ms generalizing front with
  | nil => simp [pairable]
  | cons m ms ih =>
    cases front with
    | nil =>
      rintro whole
      obtain ⟨rfl, -⟩ := List.cons.inj whole
      simp [pairOnce, pairsThenAdded_eq_some.mpr whole] at settled
    | cons f front =>
      have rest : pairOnce ms = none := by
        cases m with
        | removed =>
          rw [pairOnce] at settled
          split at settled
          · cases settled
          · exact Option.map_eq_none_iff.mp settled
        | kept | added | paired => exact Option.map_eq_none_iff.mp settled
      intro whole
      exact ih rest front (List.cons.inj whole).2

/-- The rounds of pairing up to marks of which none can be paired. -/
inductive Rounds : Nat → List PairMark → List PairMark → Prop
  | done {ms : List PairMark} (settled : pairOnce ms = none) : Rounds 0 ms ms
  | again {k : Nat} {ms ns rs : List PairMark} (round : pairOnce ms = some ns)
      (later : Rounds k ns rs) :
      Rounds (k + 1) ms rs

theorem pairAll_of_none (settled : pairOnce ms = none) : pairAll ms = ms := by
  rw [pairAll]
  split
  · rfl
  · rename_i round
    cases settled.symm.trans round

theorem pairAll_of_some (round : pairOnce ms = some ns) : pairAll ms = pairAll ns := by
  rw [pairAll]
  split
  · rename_i settled
    cases settled.symm.trans round
  · rename_i other
    cases other.symm.trans round
    rfl

theorem pairAll_rounds (ms : List PairMark) : ∃ k, Rounds k ms (pairAll ms) := by
  induction ms using pairAll.induct with
  | case1 ms settled => exact ⟨0, (pairAll_of_none settled).symm ▸ .done settled⟩
  | case2 ms ns round ih =>
    obtain ⟨k, later⟩ := ih
    exact ⟨k + 1, pairAll_of_some round ▸ .again round later⟩

theorem Rounds.settled (rounds : Rounds k ms ns) : pairOnce ns = none := by
  induction rounds with
  | done settled => exact settled
  | again _ _ ih => exact ih

/-- By how many lines marks make a text longer. -/
def balance (ms : List PairMark) : Int := ms.count .added - ms.count .removed

/-- What the marks between one kept line and the next come to. -/
def balances (ms : List PairMark) : List Int := (ms.splitOn .kept).map balance

theorem balance_append (us vs : List PairMark) : balance (us ++ vs) = balance us + balance vs := by
  simp only [balance, List.count_append]
  omega

theorem balances_cons (m : PairMark) (ms : List PairMark) :
    balances (m :: ms) = if m = .kept then 0 :: balances ms
    else (balances ms).modifyHead (balance [m] + ·) := by
  unfold balances
  rw [List.splitOn_eq_splitOnP, List.splitOn_eq_splitOnP, List.splitOnP_cons_eq_if_modifyHead]
  by_cases kept : m = .kept
  · simp [kept, balance]
  · rw [if_neg (by simpa using kept), if_neg kept]
    cases ms.splitOnP (· == .kept) with
    | nil => rfl
    | cons first rest => simp [← balance_append]

theorem balances_append (inner : .kept ∉ us) (back : List PairMark) :
    balances (us ++ back) = (balances back).modifyHead (balance us + ·) := by
  induction us with
  | nil => cases found : balances back <;> simp [balance, found]
  | cons m us ih =>
    obtain ⟨other, inner⟩ := List.ne_and_not_mem_of_not_mem_cons inner
    have first : balance (m :: us) = balance [m] + balance us := balance_append [m] us
    rw [List.cons_append, balances_cons, if_neg other.symm, ih inner,
      List.modifyHead_modifyHead, first]
    congr 1
    funext b
    exact (Int.add_assoc ..).symm

/-- Marks between two kept lines count by their balance only. -/
theorem balances_congr (left : .kept ∉ us) (right : .kept ∉ vs) (same : balance us = balance vs)
    (front back : List PairMark) :
    balances (front ++ (us ++ back)) = balances (front ++ (vs ++ back)) := by
  induction front with
  | nil => rw [List.nil_append, List.nil_append, balances_append left, balances_append right, same]
  | cons m front ih => rw [List.cons_append, List.cons_append, balances_cons, balances_cons, ih]

/-- Marks after `k` rounds: as many removed and as many added lines are gone, and nothing has
changed for the kept lines and the balance between them. -/
structure Conserves (k : Nat) (ms ns : List PairMark) : Prop where
  removed : ms.count .removed = ns.count .removed + k
  added : ms.count .added = ns.count .added + k
  kept : ms.count .kept = ns.count .kept
  balances : balances ms = balances ns

theorem conserves_of_round (round : pairOnce ms = some ns) : Conserves 1 ms ns := by
  obtain ⟨front, n, back, rfl, rfl⟩ := pairOnce_eq_some round
  refine ⟨?_, ?_, ?_, balances_congr ?_ ?_ ?_ front back⟩
  · simp [pairable, List.count_replicate]
    omega
  · simp [pairable, List.count_replicate]
    omega
  · simp [pairable, List.count_replicate]
  · simp [pairable]
  · simp
  · simp [balance, pairable, List.count_replicate]

theorem Rounds.conserves (rounds : Rounds k ms ns) : Conserves k ms ns := by
  induction rounds with
  | done settled => exact ⟨rfl, rfl, rfl, rfl⟩
  | again round later ih =>
    have first := conserves_of_round round
    exact ⟨by rw [first.removed, ih.removed, Nat.add_assoc], by rw [first.added, ih.added,
      Nat.add_assoc], first.kept.trans ih.kept, first.balances.trans ih.balances⟩

theorem balance_pairAll (ms : List PairMark) : balance (pairAll ms) = balance ms := by
  obtain ⟨k, rounds⟩ := pairAll_rounds ms
  have conserves := rounds.conserves
  rw [balance, balance, conserves.removed, conserves.added]
  omega

theorem count_ofMark (ms : List Mark) (m : Mark) :
    (ms.map PairMark.ofMark).count (.ofMark m) = ms.count m := by
  induction ms with
  | nil => rfl
  | cons e ms ih => cases e <;> cases m <;> simp_all [PairMark.ofMark]

theorem length_numbersOf {α : Type} (p : α → Bool) (n : Nat) (es : List α) :
    (numbersOf p n es).length = es.countP p := by
  induction es generalizing n with
  | nil => rfl
  | cons e es ih =>
    rw [numbersOf_cons, List.length_append, ih, List.countP_cons]
    split <;> simp [Nat.add_comm]

/-- The lines of a hunk that have come and gone make up for its growth. -/
theorem movedIn_length (h : Hunk String) :
    ((movedIn h).1.length : Int) - (movedIn h).2.length = growth h := by
  have fused : h.lines.map (fun l => .ofMark l.1) = (h.lines.map (·.1)).map PairMark.ofMark := by
    rw [List.map_map]
    rfl
  have kept := balance_pairAll ((h.lines.map (·.1)).map PairMark.ofMark)
  have added : ((h.lines.map (·.1)).map PairMark.ofMark).count .added = _ := count_ofMark _ .added
  have removed : ((h.lines.map (·.1)).map PairMark.ofMark).count .removed = _ :=
    count_ofMark _ .removed
  rw [balance, balance, added, removed] at kept
  rw [growth, ← kept, movedIn, fused]
  simp only [length_numbersOf]
  rfl

theorem length_newer {i j : Nat} {older newer : List String} {hs : List (Hunk String)}
    (describes : Describes i j older newer hs) :
    (newer.length : Int) = older.length + totalGrowth hs := by
  induction describes with
  | same => exact (Int.add_zero _).symm
  | hunk between h aStart aLength bStart bLength later ih =>
    have grown := newerLines_length_eq h.lines
    simp only [List.length_append, totalGrowth, growth]
    omega

theorem movedIn_total (hs : List (Hunk String)) :
    ((hs.flatMap fun h => (movedIn h).1).length : Int) - (hs.flatMap fun h =>
      (movedIn h).2).length =
      totalGrowth hs := by
  induction hs with
  | nil => rfl
  | cons h hs ih =>
    have first := movedIn_length h
    simp only [List.flatMap_cons, List.length_append, totalGrowth]
    omega

namespace ChangeMarks

theorem movedLines_length (c : ChangeMarks) (new : String) :
    ((c.movedLines new).1.length : Int) - (c.movedLines new).2.length =
      (textLines new).length - (textLines c.snapshot).length := by
  have describes : Describes 0 0 (textLines c.snapshot) (textLines new) (c.hunksTo new) :=
    hunks_describe _ _
  have grown := length_newer describes
  have total := movedIn_total (c.hunksTo new)
  simp only [movedLines, List.flatMap_map]
  rw [← hunksTo]
  omega

/-- Pairing ends after at most one round for each removed line. It keeps the added lines less the
removed ones, as a whole and between any two kept lines, and with them the kept lines in their
places. No removed line is left that is followed by pairs only and then an added line. So the lines
that have come less those that have gone are what the new text has more than the snapshot. -/
theorem pairing_conserves_lines :
    (∀ ms : List Mark, ∃ rounds ≤ ms.count .removed,
      Rounds rounds (ms.map .ofMark) (pairAll (ms.map .ofMark)) ∧
      balance (pairAll (ms.map .ofMark)) = ms.count .added - ms.count .removed ∧
      (pairAll (ms.map .ofMark)).count .kept = ms.count .kept ∧
      balances (pairAll (ms.map .ofMark)) = balances (ms.map .ofMark) ∧
      ∀ front n back, pairAll (ms.map .ofMark) ≠
        front ++ .removed :: (List.replicate n .paired ++ .added :: back)) ∧
    ∀ (c : ChangeMarks) (new : String),
    ((c.movedLines new).1.length : Int) - (c.movedLines new).2.length =
      (textLines new).length - (textLines c.snapshot).length := by
  refine ⟨fun ms => ?_, movedLines_length⟩
  have added : (ms.map PairMark.ofMark).count .added = ms.count .added := count_ofMark ms .added
  have removed : (ms.map PairMark.ofMark).count .removed = ms.count .removed :=
    count_ofMark ms .removed
  have kept : (ms.map PairMark.ofMark).count .kept = ms.count .kept := count_ofMark ms .kept
  obtain ⟨k, rounds⟩ := pairAll_rounds (ms.map .ofMark)
  have conserves := rounds.conserves
  refine ⟨k, ?_, rounds, ?_, ?_, conserves.balances.symm, fun front n back => ?_⟩
  · rw [← removed, conserves.removed]
    exact Nat.le_add_left _ _
  · rw [balance_pairAll, balance, added, removed]
  · rw [← conserves.kept, kept]
  · simpa [pairable] using not_pairable rounds.settled front n back

end ChangeMarks
end TacBench.Editor
