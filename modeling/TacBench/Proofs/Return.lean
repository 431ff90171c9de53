import TacBench.Proofs.Placement

/-! Where a return leads. Each return closes the call that opened last and is still open; the call
is found again in the history of the run, and with it what was open before. The loop moves on by
itself after an instruction that left the counter where it was, and it cannot tell from this a
return that leads to its own position. -/
namespace TacBench.Machine

variable {p : Program} {start m m' before : Machine} {i : Instruction} {j k : Nat}

/-- The call before state `j` is open in every later state up to `k`, on top of what was open. -/
structure OpenSince (p : Program) (start : Machine) (j : Nat) (before : Machine) (k : Nat) :
    Prop where
  earlier : j < k
  reached : stateAt p start j = some before
  called : ∃ i, p.fetch? before = some i ∧ i.opcode = .call
  kept : ∀ n m, j < n → n ≤ k → stateAt p start n = some m → before.pc :: before.calls <:+ m.calls

theorem OpenSince.extend (opened : OpenSince p start j before k)
    (reached : stateAt p start (k + 1) = some m) (kept : before.pc :: before.calls <:+ m.calls) :
    OpenSince p start j before (k + 1) := by
  refine ⟨Nat.lt_succ_of_lt opened.earlier, opened.reached, opened.called, ?_⟩
  intro n x after upto found
  rcases Nat.le_succ_iff.mp upto with upto | rfl
  · exact opened.kept n x after upto found
  · cases Option.some.inj (reached.symm.trans found)
    exact kept

/-- What one step does to the open calls. -/
theorem step_calls (stepped : step p m = .next m') :
    m'.calls = m.calls ∨
    (∃ i, p.fetch? m = some i ∧ i.opcode = .call) ∧ m'.calls = m.pc :: m.calls ∨
    ∃ position, m.calls = position :: m'.calls := by
  obtain ⟨i, between, fetched, ran, rfl⟩ := step_next.mp stepped
  have moved := (execute_moves i m).1
  rw [left_of_ok ran] at moved
  rw [advance_calls]
  cases moved with
  | stays _ calls => exact .inl calls
  | jumps _ _ _ _ calls => exact .inl calls
  | calls _ opcode _ _ calls => exact .inr (.inl ⟨⟨i, fetched, opcode⟩, calls⟩)
  | returns position _ closed _ => exact .inr (.inr ⟨position, closed⟩)

/-- Every entry of the open calls was put there by a call of the run, and has lain on what was open
before that call ever since. -/
theorem open_call_origin {position : Int} {rest : List Int} (initial : start.calls = [])
    (reached : stateAt p start k = some m) (saved : position :: rest <:+ m.calls) :
    ∃ j before, OpenSince p start j before k ∧ before.pc = position ∧ before.calls = rest := by
  induction k generalizing m with
  | zero =>
    cases Option.some.inj reached
    rw [initial] at saved
    cases List.suffix_nil.mp saved
  | succ k ih =>
    obtain ⟨last, earlier, stepped⟩ := stateAt_succ.mp reached
    -- an entry that was there before the last step comes from where it came from then
    have old (saved' : position :: rest <:+ last.calls) : ∃ j before,
        OpenSince p start j before (k + 1) ∧ before.pc = position ∧ before.calls = rest := by
      obtain ⟨j, before, opened, rfl, rfl⟩ := ih earlier saved'
      exact ⟨j, before, opened.extend reached saved, rfl, rfl⟩
    rcases step_calls stepped with same | ⟨called, pushed⟩ | ⟨closed, popped⟩
    · exact old (same ▸ saved)
    · rw [pushed] at saved
      rcases List.suffix_cons_iff.mp saved with whole | inner
      · obtain ⟨rfl, rfl⟩ := List.cons.inj whole
        refine ⟨k, last, ⟨Nat.lt_succ_self k, earlier, called, ?_⟩, rfl, rfl⟩
        intro n x after upto found
        obtain rfl : n = k + 1 := by omega
        cases Option.some.inj (reached.symm.trans found)
        exact pushed ▸ List.suffix_refl _
      · exact old inner
    · exact old (popped ▸ saved.trans (List.suffix_cons _ _))

/-- The return before state `k` closes the call before state `j`: from behind the call to the return
more calls are open than before the call, and at the return it is one more. -/
structure Closes (p : Program) (start : Machine) (k j : Nat) (before : Machine) : Prop where
  earlier : j < k
  reached : stateAt p start j = some before
  called : ∃ i, p.fetch? before = some i ∧ i.opcode = .call
  inside : ∀ n m, j < n → n ≤ k → stateAt p start n = some m → before.calls.length < m.calls.length
  last : ∀ m, stateAt p start k = some m → m.calls.length = before.calls.length + 1

theorem Closes.unique {j' : Nat} {before' : Machine} (reached : stateAt p start k = some m)
    (first : Closes p start k j before) (second : Closes p start k j' before') : j = j' := by
  have level := first.last m reached
  have level' := second.last m reached
  rcases Nat.lt_trichotomy j j' with ordered | same | ordered
  · have deeper := first.inside j' before' ordered (Nat.le_of_lt second.earlier) second.reached
    omega
  · exact same
  · have deeper := second.inside j before ordered (Nat.le_of_lt first.earlier) first.reached
    omega

theorem OpenSince.closes (opened : OpenSince p start j before k)
    (reached : stateAt p start k = some m) (top : m.calls = before.pc :: before.calls) :
    Closes p start k j before := by
  refine ⟨opened.earlier, opened.reached, opened.called, ?_, ?_⟩
  · intro n x after upto found
    exact Nat.lt_of_succ_le (opened.kept n x after upto found).length_le
  · intro x found
    cases Option.some.inj (reached.symm.trans found)
    rw [top, List.length_cons]

/-- A return that succeeds takes the newest saved position and leads behind it. -/
theorem execute_return (opcode : i.opcode = .ret) (ran : (execute i).run m = .ok () m') :
    ∃ position, m.calls = position :: m'.calls ∧ m'.pc = position + 1 := by
  obtain ⟨_, between, commanded, accounted⟩ := bind_ok.mp ran
  rw [opcode] at commanded
  cases operands : i.operands with
  | cons o rest =>
    rw [operands] at commanded
    contradiction
  | nil =>
    rw [operands] at commanded
    change returnBack.run m = .ok _ between at commanded
    simp only [returnBack, EStateM.run_bind, EStateM.run_get] at commanded
    cases saved : m.calls with
    | nil =>
      rw [saved] at commanded
      contradiction
    | cons position rest =>
      rw [saved] at commanded
      cases commanded
      cases accounted
      exact ⟨position, rfl, rfl⟩

/-- Every return of a run closes exactly one call and leaves open what was open before it. It
resumes directly behind that call unless it stands there itself; then the loop moves on once
more. -/
theorem return_resumes_behind_call (p : Program) (input : String) (interruptOn : Option Text)
    (reached : stateAt p (p.start input interruptOn) k = some m) (fetched : p.fetch? m = some i)
    (opcode : i.opcode = .ret) (stepped : step p m = .next m') :
    ∃ j before, Closes p (p.start input interruptOn) k j before ∧
      (∀ j' before', Closes p (p.start input interruptOn) k j' before' → j' = j) ∧
      m.calls = before.pc :: before.calls ∧ m'.calls = before.calls ∧
      (m'.pc = before.pc + 1 ↔ m.pc ≠ before.pc + 1) ∧
      (m.pc = before.pc + 1 → m'.pc = before.pc + 2) := by
  obtain ⟨i', between, fetched', ran, rfl⟩ := step_next.mp stepped
  cases Option.some.inj (fetched.symm.trans fetched')
  obtain ⟨position, saved, behind⟩ := execute_return opcode ran
  have top : position :: between.calls <:+ m.calls := saved ▸ List.suffix_refl m.calls
  obtain ⟨j, before, opened, rfl, rest⟩ := open_call_origin rfl reached top
  rw [← rest] at saved
  have closes := opened.closes reached saved
  refine ⟨j, before, closes, fun j' before' other => other.unique reached closes, saved, ?_, ?_, ?_⟩
  · rw [advance_calls, rest]
  · rw [advance_pc, behind]
    split <;> omega
  · intro here
    rw [advance_pc, behind, if_pos here.symm, here]
    omega

/-- A function whose return stands right behind its call of itself. -/
def tailCall : Program where
  instructions :=
    let n : Operand := .var ⟨.globals, true, true⟩ "n"
    #[⟨.defVar, [n], 2, "DEFVAR GF@n"⟩,
      ⟨.move, [n, .constant (.int 0)], 3, "MOVE GF@n int@0"⟩,
      ⟨.call, [.label "f"], 4, "CALL f"⟩,
      ⟨.jump, [.label "end"], 5, "JUMP end"⟩,
      ⟨.label, [.label "f"], 6, "LABEL f"⟩,
      ⟨.jumpIf true, [.label "base", n, .constant (.int 2)], 7, "JUMPIFEQ base GF@n int@2"⟩,
      ⟨.binary .add, [n, n, .constant (.int 1)], 8, "ADD GF@n GF@n int@1"⟩,
      ⟨.call, [.label "f"], 9, "CALL f"⟩,
      ⟨.ret, [], 10, "RETURN"⟩,
      ⟨.label, [.label "base"], 11, "LABEL base"⟩,
      ⟨.write, [.constant (.str "x")], 12, "WRITE string@x"⟩,
      ⟨.ret, [], 13, "RETURN"⟩,
      ⟨.label, [.label "end"], 14, "LABEL end"⟩]

def tailCallCode : String :=
  ".IFJcode17\nDEFVAR GF@n\nMOVE GF@n int@0\nCALL f\nJUMP end\nLABEL f\n" ++
  "JUMPIFEQ base GF@n int@2\nADD GF@n GF@n int@1\nCALL f\nRETURN\n" ++
  "LABEL base\nWRITE string@x\nRETURN\nLABEL end\n"

def tailCallState (k : Nat) : Machine := (stateAt tailCall (tailCall.start "" none) k).getD default

theorem tailCall_return_closes :
    stateAt tailCall (tailCall.start "" none) 16 = some (tailCallState 16) ∧
    step tailCall (tailCallState 16) = .next (tailCallState 17) ∧
    ∃ j before, Closes tailCall (tailCall.start "" none) 16 j before ∧
      (∀ j' before', Closes tailCall (tailCall.start "" none) 16 j' before' → j' = j) ∧
      (tailCallState 16).calls = before.pc :: before.calls ∧
      (tailCallState 17).calls = before.calls ∧
      ((tailCallState 17).pc = before.pc + 1 ↔ (tailCallState 16).pc ≠ before.pc + 1) ∧
      ((tailCallState 16).pc = before.pc + 1 → (tailCallState 17).pc = before.pc + 2) := by
  have reached : stateAt tailCall (tailCall.start "" none) 16 = some (tailCallState 16) := by
    decide +kernel
  have stepped : step tailCall (tailCallState 16) = .next (tailCallState 17) :=
    next?_eq_some.mp (by decide +kernel)
  have fetched : tailCall.fetch? (tailCallState 16) =
      some ⟨.ret, [], 10, "RETURN"⟩ := by decide +kernel
  exact ⟨reached, stepped, return_resumes_behind_call tailCall "" none reached fetched rfl stepped⟩

/-- The return at position 8 closes the call at position 7 and is followed by position 9. -/
theorem tailCall_return_overshoots :
    (Program.load tailCallCode).toOption = some tailCall ∧
    stateAt tailCall (tailCall.start "" none) 16 = some (tailCallState 16) ∧
    tailCall.fetch? (tailCallState 16) = some ⟨.ret, [], 10, "RETURN"⟩ ∧
    (tailCallState 16).calls = [7, 2] ∧
    step tailCall (tailCallState 16) = .next (tailCallState 17) ∧
    (tailCallState 17).pc = 9 :=
  ⟨by decide +kernel, by decide +kernel, by decide +kernel, by decide +kernel,
    next?_eq_some.mp (by decide +kernel), by decide +kernel⟩

end TacBench.Machine
