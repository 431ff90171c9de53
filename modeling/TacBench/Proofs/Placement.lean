import TacBench.Proofs.Control
import TacBench.Proofs.Labels

/-! Positions in a running program. The counter stays between the first instruction and the end, the
open calls are positions of call instructions, and the labels are those of the program. -/
namespace TacBench.Machine

variable {p : Program} {m m' : Machine}

structure Placed (p : Program) (m : Machine) : Prop where
  nonneg : 0 ≤ m.pc
  within : m.pc ≤ p.instructions.size
  calls : ∀ c ∈ m.calls, ∃ i, p.at? c = some i ∧ i.opcode = .call
  table : m.labels = p.labels

theorem start_placed (p : Program) (input : String) (interruptOn : Option Text) :
    Placed p (p.start input interruptOn) where
  nonneg := Int.le_refl 0
  within := Int.natCast_nonneg _
  calls _ member := by contradiction
  table := rfl

/-- The machine that an instruction leaves, before the loop moves on. A return can lead to the end
of the program but not beyond it, since a call stands before. -/
theorem execute_placed {i : Instruction} (placed : Placed p m) (fetched : p.fetch? m = some i) :
    Placed p (left (execute i) m) := by
  obtain ⟨moved, labels⟩ := execute_moves i m
  have table := labels.trans placed.table
  cases moved with
  | stays same calls =>
    exact ⟨same ▸ placed.nonneg, same ▸ placed.within, calls ▸ placed.calls, table⟩
  | jumps o rest named found calls =>
    rw [placed.table] at found
    obtain ⟨target, -, -, position, -⟩ := Program.labelAt_of_find? found
    obtain ⟨nonneg, bound⟩ := Program.at?_bounds position
    exact ⟨nonneg, Int.le_of_lt bound, calls ▸ placed.calls, table⟩
  | calls o opcode named found calls =>
    rw [placed.table] at found
    obtain ⟨target, -, -, position, -⟩ := Program.labelAt_of_find? found
    obtain ⟨nonneg, bound⟩ := Program.at?_bounds position
    refine ⟨nonneg, Int.le_of_lt bound, fun c member => ?_, table⟩
    rw [calls] at member
    rcases List.mem_cons.mp member with rfl | old
    · exact ⟨i, fetched, opcode⟩
    · exact placed.calls c old
  | returns position opcode closed behind =>
    obtain ⟨caller, found, -⟩ := placed.calls position (closed ▸ List.mem_cons_self)
    obtain ⟨nonneg, bound⟩ := Program.at?_bounds found
    refine ⟨by omega, by omega, fun c member => ?_, table⟩
    exact placed.calls c (closed ▸ List.mem_cons_of_mem _ member)

theorem advance_placed {i : Instruction} (placed : Placed p m) (fetched : p.fetch? m = some i)
    (after : Placed p m') : Placed p (advance m m') := by
  obtain ⟨-, bound⟩ := Program.at?_bounds (p.fetch?_eq m ▸ fetched)
  have nonneg := placed.nonneg
  refine ⟨?_, ?_, (advance_calls m m').symm ▸ after.calls, (advance_labels m m').trans after.table⟩
  · rw [advance_pc]
    split
    · omega
    · exact after.nonneg
  · rw [advance_pc]
    split
    · omega
    · exact after.within

theorem run_placed (placed : Placed p m) (fuel : Nat) : Placed p (run p fuel m).2 := by
  refine run_invariant (fun placed stepped => ?_) (fun placed stopped => ?_) placed fuel
  · obtain ⟨i, between, fetched, ran, rfl⟩ := step_next.mp stepped
    exact advance_placed placed fetched (left_of_ok ran ▸ execute_placed placed fetched)
  · obtain ⟨i, e, fetched, ran⟩ := step_stopped stopped
    exact left_of_error ran ▸ execute_placed placed fetched

/-- Every state of every run, the one it ends in included: with each amount of fuel the run stops at
another of them. Nothing is asked of the program, so this holds of all that can be loaded. -/
theorem run_positions_valid (p : Program) (input : String) (interruptOn : Option Text)
    (fuel : Nat) :
    let m := (run p fuel (p.start input interruptOn)).2
    (0 ≤ m.pc ∧ m.pc ≤ p.instructions.size) ∧
    (m.pc < p.instructions.size → ∃ i, p.fetch? m = some i) ∧
    (∀ c ∈ m.calls, ∃ i, p.at? c = some i ∧ i.opcode = .call) ∧
    m.labels = p.labels ∧
    (∀ l n, (l, n) ∈ m.labels → m.labels.find? l = some n ∧ p.LabelAt l n) ∧
    (∀ l k n, (l, n) ∈ m.labels → (k, n) ∈ m.labels → l = k) ∧
    (∀ l n, m.labels.find? (some l) = some n → m.labelAt n = l) ∧
    (∀ n, (∀ l, m.labels.find? (some l) ≠ some n) → m.labelAt n = "") := by
  intro m
  have placed : Placed p m := run_placed (start_placed p input interruptOn) fuel
  refine ⟨⟨placed.nonneg, placed.within⟩, Program.at?_of_bounds placed.nonneg, placed.calls,
    placed.table, ?_, ?_, fun l n => labelAt_of_label placed.table,
    fun n => labelAt_of_no_label placed.table⟩
  · intro l n member
    rw [placed.table] at member ⊢
    exact ⟨Program.find?_labels.mpr member, Program.mem_labels member⟩
  · intro l k n first second
    rw [placed.table] at first second
    exact (Program.mem_labels first).unique (Program.mem_labels second)

end TacBench.Machine
