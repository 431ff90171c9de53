import TacBench.Machine.Run

/-! The states that a run goes through, counted from its beginning, and what one step of it is made
of. Running with too little fuel stops at the state with that number. -/
namespace TacBench.Machine

variable {p : Program} {m m' : Machine} {n k fuel : Nat}

theorem step_ended : step p m = .ended ↔ p.fetch? m = none := by
  unfold step
  cases p.fetch? m with
  | none => simp
  | some i =>
    dsimp only
    split <;> simp

theorem step_next : step p m = .next m' ↔
    ∃ i between, p.fetch? m = some i ∧ (execute i).run m = .ok () between ∧
      m' = advance m between := by
  unfold step
  cases p.fetch? m with
  | none => simp
  | some i =>
    dsimp only
    split
    · rename_i between ran
      simp [ran, eq_comm]
    · rename_i ran
      simp [ran]
    · rename_i ran
      simp [ran]

/-- A step that does not go on leaves the machine of the instruction that did not succeed. -/
theorem step_stopped (stopped : step p m = .interrupted m' ∨ ∃ f, step p m = .failed f m') :
    ∃ i e, p.fetch? m = some i ∧ (execute i).run m = .error e m' := by
  unfold step at stopped
  cases fetched : p.fetch? m with
  | none => simp [fetched] at stopped
  | some i =>
    simp only [fetched] at stopped
    split at stopped
    · simp at stopped
    · rename_i after ran
      have same : after = m' := by simpa using stopped
      exact ⟨i, _, rfl, same ▸ ran⟩
    · rename_i after _ ran
      have same : after = m' := by simpa using stopped
      exact ⟨i, _, rfl, same ▸ ran⟩

theorem step_failed {f : Failure} (stepped : step p m = .failed f m') :
    ∃ i e, p.fetch? m = some i ∧ (execute i).run m = .error e m' ∧ e ≠ .interrupted ∧
      f = located i e := by
  unfold step at stepped
  cases fetched : p.fetch? m with
  | none =>
    rw [fetched] at stepped
    cases stepped
  | some i =>
    rw [fetched] at stepped
    dsimp only at stepped
    split at stepped
    · cases stepped
    · cases stepped
    · rename_i e after other ran
      cases stepped
      exact ⟨i, e, rfl, ran, other, rfl⟩

theorem located_fault (i : Instruction) (e : Fault) : (located i e).fault = e := by
  cases e <;> rfl

/-- The machine after one instruction, if the run goes on. -/
def next? (p : Program) (m : Machine) : Option Machine :=
  match step p m with
  | .next m' => some m'
  | _ => none

theorem next?_eq_some : next? p m = some m' ↔ step p m = .next m' := by
  unfold next?
  split
  · rename_i after stepped
    simp [stepped]
  · rename_i other
    simp only [reduceCtorEq, false_iff]
    exact other m'

/-- The machine after `n` instructions, if the run gets that far. -/
def stateAt (p : Program) (m : Machine) : Nat → Option Machine
  | 0 => some m
  | n + 1 => (stateAt p m n).bind (next? p)

theorem stateAt_succ : stateAt p m (n + 1) = some m' ↔
    ∃ before, stateAt p m n = some before ∧ step p before = .next m' := by
  simp only [stateAt, Option.bind_eq_some_iff, next?_eq_some]

theorem stateAt_of_le (ordered : k ≤ n) (reached : stateAt p m n = some m') :
    ∃ earlier, stateAt p m k = some earlier := by
  induction ordered generalizing m' with
  | refl => exact ⟨m', reached⟩
  | step _ ih =>
    obtain ⟨before, reached, -⟩ := stateAt_succ.mp reached
    exact ih reached

/-- A run has no states behind one from which it does not go on. -/
theorem stateAt_eq_none (reached : stateAt p m n = some m') (stops : next? p m' = none)
    (later : n < k) : stateAt p m k = none := by
  induction later with
  | refl => simp only [stateAt, reached, Option.bind_some, stops]
  | step _ ih => simp only [stateAt, ih, Option.bind_none]

/-- A run goes on from each of its states. -/
theorem run_of_stateAt (reached : stateAt p m n = some m') (fuel : Nat) :
    run p (n + fuel) m = run p fuel m' := by
  induction n generalizing m' fuel with
  | zero =>
    cases Option.some.inj reached
    rw [Nat.zero_add]
  | succ n ih =>
    obtain ⟨before, reached, stepped⟩ := stateAt_succ.mp reached
    rw [Nat.add_assoc, Nat.add_comm 1, ih reached, run, stepped]

/-- How a run ends at one of its states, and with which machine. -/
inductive EndsAt (p : Program) (m : Machine) : Outcome → Machine → Prop where
  | ended (stepped : step p m = .ended) : EndsAt p m .finished m
  | interrupted (m' : Machine) (stepped : step p m = .interrupted m') : EndsAt p m .finished m'
  | failed (f : Failure) (m' : Machine) (stepped : step p m = .failed f m') :
      EndsAt p m (.failed f) m'

/-- A run that does not use up its fuel ends at one of its states. -/
theorem run_endsAt {start : Machine} {o : Outcome} (reached : stateAt p start n = some m)
    (ran : run p fuel m = (o, m')) (enough : o ≠ .outOfFuel) :
    ∃ k before, stateAt p start k = some before ∧ EndsAt p before o m' := by
  induction fuel generalizing n m with
  | zero =>
    cases ran
    exact absurd rfl enough
  | succ fuel ih =>
    unfold run at ran
    split at ran
    · rename_i stepped
      cases ran
      exact ⟨n, _, reached, .ended stepped⟩
    · rename_i stepped
      exact ih (stateAt_succ.mpr ⟨m, reached, stepped⟩) ran
    · rename_i stepped
      cases ran
      exact ⟨n, m, reached, .interrupted _ stepped⟩
    · rename_i stepped
      cases ran
      exact ⟨n, m, reached, .failed _ _ stepped⟩

theorem EndsAt.next?_eq_none {o : Outcome} (ends : EndsAt p m o m') : next? p m = none := by
  cases ends with
  | ended stepped => simp only [next?, stepped]
  | interrupted _ stepped => simp only [next?, stepped]
  | failed _ _ stepped => simp only [next?, stepped]

theorem EndsAt.unique {o o' : Outcome} {last last' : Machine} (first : EndsAt p m o last)
    (second : EndsAt p m o' last') : o = o' := by
  cases first <;> cases second <;> simp_all

/-- A run ends in one way only, however much fuel it is given. -/
theorem run_outcome_unique {o o' : Outcome} {last last' : Machine} {fuel' : Nat}
    (ran : run p fuel m = (o, last)) (enough : o ≠ .outOfFuel)
    (ran' : run p fuel' m = (o', last')) (enough' : o' ≠ .outOfFuel) : o = o' := by
  obtain ⟨n, before, reached, ends⟩ := run_endsAt (n := 0) rfl ran enough
  obtain ⟨k, before', reached', ends'⟩ := run_endsAt (n := 0) rfl ran' enough'
  rcases Nat.lt_trichotomy n k with sooner | rfl | later
  · rw [stateAt_eq_none reached ends.next?_eq_none sooner] at reached'
    cases reached'
  · cases Option.some.inj (reached.symm.trans reached')
    exact ends.unique ends'
  · rw [stateAt_eq_none reached' ends'.next?_eq_none later] at reached
    cases reached

/-- What each outcome of an instruction keeps, a run keeps to its end, however it ends and wherever
the fuel is used up. -/
theorem run_invariant {P : Machine → Prop} (advances : ∀ {m m'}, P m → step p m = .next m' → P m')
    (stops : ∀ {m m'}, P m → (step p m = .interrupted m' ∨ ∃ f, step p m = .failed f m') → P m')
    (initial : P m) (fuel : Nat) : P (run p fuel m).2 := by
  induction fuel generalizing m with
  | zero => exact initial
  | succ fuel ih =>
    unfold run
    split
    · exact initial
    · rename_i stepped
      exact ih (advances initial stepped)
    · rename_i stepped
      exact stops initial (.inl stepped)
    · rename_i stepped
      exact stops initial (.inr ⟨_, stepped⟩)

/-- The machine after `n` instructions, the last of which may have failed, or that of the end if the
run is over by then. -/
def reached (p : Program) (m : Machine) (n : Nat) : Machine := (run p n m).2

theorem reached_of_next (stepped : step p m = .next m') (n : Nat) :
    reached p m (n + 1) = reached p m' n := by
  simp only [reached, run, stepped]

/-- The machine that a step leaves, whether or not the run goes on. -/
def Step.machine (before : Machine) : Step → Machine
  | .ended => before
  | .next m | .interrupted m | .failed _ m => m

/-- From one count to the next a step is made, unless the run is over. -/
theorem reached_succ (p : Program) (m : Machine) (n : Nat) :
    reached p m (n + 1) = reached p m n ∨
    reached p m (n + 1) = (step p (reached p m n)).machine (reached p m n) := by
  induction n generalizing m with
  | zero =>
    refine .inr ?_
    simp only [reached, run]
    cases step p m <;> rfl
  | succ n ih =>
    cases stepped : step p m with
    | next m' =>
      rw [reached_of_next stepped, reached_of_next stepped]
      exact ih m'
    | ended | interrupted _ | failed _ _ =>
      refine .inl ?_
      simp only [reached, run, stepped]

theorem advance_pc (before after : Machine) :
    (advance before after).pc = if after.pc = before.pc then before.pc + 1 else after.pc := by
  unfold advance
  split
  · rename_i same
    exact congrArg (· + 1) same
  · rfl

theorem advance_calls (before after : Machine) : (advance before after).calls = after.calls := by
  unfold advance
  split <;> rfl

theorem advance_labels (before after : Machine) : (advance before after).labels = after.labels := by
  unfold advance
  split <;> rfl

theorem advance_stack (before after : Machine) : (advance before after).stack = after.stack := by
  unfold advance
  split <;> rfl

end TacBench.Machine
