import TacBench.Proofs.Effect
import TacBench.Proofs.States

/-! How commands direct the flow of control: which of them move the program counter, open a call or
close one, and where they get the new position from. -/
namespace TacBench.Machine

variable {c : Opcode} {operands : List Operand} {i : Instruction} {p : Program} {m m' : Machine}

/-- Nothing that directs the flow of control has changed. -/
def SameControl (m m' : Machine) : Prop :=
  m'.pc = m.pc ∧ m'.calls = m.calls ∧ m'.labels = m.labels

/-- Only the counter can have moved, and then to the position of the label. -/
def JumpsTo (l : Option String) (m m' : Machine) : Prop :=
  (m'.pc = m.pc ∨ m.labels.find? l = some m'.pc) ∧ m'.calls = m.calls ∧ m'.labels = m.labels

theorem storeIn_control (k : FrameKind) (name : String) (v : Value) (m : Machine) :
    SameControl m (storeIn k name v m) := by
  cases k with
  | temporary => exact ⟨rfl, rfl, rfl⟩
  | globals => exact ⟨rfl, rfl, rfl⟩
  | locals =>
    unfold storeIn
    dsimp only
    split <;> exact ⟨rfl, rfl, rfl⟩

theorem SameControl.admits : Admits SameControl where
  refl _ := ⟨rfl, rfl, rfl⟩
  trans first second :=
    ⟨second.1.trans first.1, second.2.1.trans first.2.1, second.2.2.trans first.2.2⟩
  charged _ _ := ⟨rfl, rfl, rfl⟩
  stored m k name v := storeIn_control k name v m
  stacked _ _ _ := ⟨rfl, rfl, rfl⟩
  framed _ _ _ := ⟨rfl, rfl, rfl⟩
  written _ _ := ⟨rfl, rfl, rfl⟩
  consumed _ _ := ⟨rfl, rfl, rfl⟩

theorem SameControl.jumpsTo {l : Option String} (same : SameControl m m') : JumpsTo l m m' :=
  ⟨.inl same.1, same.2⟩

theorem JumpsTo.admits (l : Option String) : Admits (JumpsTo l) where
  refl m := (SameControl.admits.refl m).jumpsTo
  trans first second := by
    refine ⟨?_, second.2.1.trans first.2.1, second.2.2.trans first.2.2⟩
    rcases second.1 with stayed | moved
    · rw [stayed]
      exact first.1
    · exact .inr (first.2.2 ▸ moved)
  charged m n := (SameControl.admits.charged m n).jumpsTo
  stored m k name v := (SameControl.admits.stored m k name v).jumpsTo
  stacked m values n := (SameControl.admits.stacked m values n).jumpsTo
  framed m temp locals := (SameControl.admits.framed m temp locals).jumpsTo
  written m entries := (SameControl.admits.written m entries).jumpsTo
  consumed m rest := (SameControl.admits.consumed m rest).jumpsTo

theorem target_run (o : Operand) (m : Machine) :
    (target (.operand o)).run m = match m.labels.find? (Program.labelOf o) with
      | some n => .ok n m
      | none => .error (.language (.unknownLabel (Program.labelOf o))) m := by
  have looked : ∀ l, (do
      let m ← get
      match m.labels.find? l with
      | some n => return n
      | none => fail (.unknownLabel l) : Exec Int).run m = match m.labels.find? l with
        | some n => .ok n m
        | none => .error (.language (.unknownLabel l)) m := by
    intro l
    simp only [EStateM.run_bind, EStateM.run_get]
    cases m.labels.find? l <;> rfl
  cases o <;> exact looked _

theorem jump_jumpsTo (o : Operand) :
    Respects (JumpsTo (Program.labelOf o)) (jump (.operand o)) := by
  intro m
  simp only [left, jump, EStateM.run_bind, target_run]
  cases found : m.labels.find? (Program.labelOf o) with
  | none => exact (JumpsTo.admits _).refl m
  | some n => exact ⟨.inr found, rfl, rfl⟩

theorem jumpIf_jumpsTo (o : Operand) (l r : Source) (equal : Bool) :
    Respects (JumpsTo (Program.labelOf o)) (jumpIf (.operand o) l r equal) := by
  have admits := JumpsTo.admits (Program.labelOf o)
  refine admits.bind (admits.read _) fun _ => admits.bind (admits.read _) fun _ => ?_
  split
  · exact jump_jumpsTo o
  · exact admits.pure _

theorem jumpIfStack_jumpsTo (o : Operand) (equal : Bool) :
    Respects (JumpsTo (Program.labelOf o)) (jumpIfStack (.operand o) equal) := by
  have admits := JumpsTo.admits (Program.labelOf o)
  exact admits.bind (admits.pop _) fun _ => admits.bind (admits.pop _) fun _ =>
    jumpIf_jumpsTo o _ _ _

/-- What one command does to the flow of control. Opening a call saves the position of the command
itself; closing one leads behind the saved position. -/
inductive Moves (c : Opcode) (operands : List Operand) (m m' : Machine) : Prop where
  | stays (same : m'.pc = m.pc) (open_ : m'.calls = m.calls)
  | jumps (o : Operand) (rest : List Operand) (named : operands = o :: rest)
      (found : m.labels.find? (Program.labelOf o) = some m'.pc) (open_ : m'.calls = m.calls)
  | calls (o : Operand) (opcode : c = .call) (named : operands = [o])
      (found : m.labels.find? (Program.labelOf o) = some m'.pc) (open_ : m'.calls = m.pc :: m.calls)
  | returns (position : Int) (opcode : c = .ret) (closed : m.calls = position :: m'.calls)
      (behind : m'.pc = position + 1)

theorem JumpsTo.moves {o : Operand} {rest : List Operand}
    (jumped : JumpsTo (Program.labelOf o) m m') (named : operands = o :: rest) :
    Moves c operands m m' :=
  jumped.1.elim (fun same => .stays same jumped.2.1) (fun found =>
    .jumps o rest named found jumped.2.1)

theorem call_moves (o : Operand) (m : Machine) :
    Moves .call [o] m (left (call (.operand o)) m) ∧ (left (call (.operand o)) m).labels =
      m.labels := by
  simp only [left, call, EStateM.run_bind, target_run]
  cases found : m.labels.find? (Program.labelOf o) with
  | none => exact ⟨.stays rfl rfl, rfl⟩
  | some n => exact ⟨.calls o rfl rfl found rfl, rfl⟩

theorem returnBack_moves (operands : List Operand) (m : Machine) :
    Moves .ret operands m (left returnBack m) ∧ (left returnBack m).labels = m.labels := by
  simp only [left, returnBack, EStateM.run_bind, EStateM.run_get]
  cases saved : m.calls with
  | nil => exact ⟨.stays rfl rfl, rfl⟩
  | cons position rest => exact ⟨.returns position rfl saved rfl, rfl⟩

theorem command_moves (c : Opcode) (operands : List Operand) (m : Machine) :
    Moves c operands m (left (command c operands) m) ∧
      (left (command c operands) m).labels = m.labels := by
  by_cases straight : c.directs = false
  · have same := SameControl.admits.command c operands straight m
    exact ⟨.stays same.1 same.2.1, same.2.2⟩
  · have refused : ∀ m, Moves c operands m (left (throw .operandCount : Exec Unit) m) ∧
        (left (throw .operandCount : Exec Unit) m).labels = m.labels :=
          fun m => ⟨.stays rfl rfl, rfl⟩
    cases c with
    | jump =>
      match operands with
      | [o] => exact ⟨(jump_jumpsTo o m).moves rfl, (jump_jumpsTo o m).2.2⟩
      | [] | _ :: _ :: _ => exact refused m
    | call =>
      match operands with
      | [o] => exact call_moves o m
      | [] | _ :: _ :: _ => exact refused m
    | ret =>
      match operands with
      | [] => exact returnBack_moves [] m
      | _ :: _ => exact refused m
    | jumpIf equal =>
      match operands with
      | [o, l, r] =>
        have jumped := jumpIf_jumpsTo o (.operand l) (.operand r) equal m
        exact ⟨jumped.moves rfl, jumped.2.2⟩
      | [] | [_] | [_, _] | _ :: _ :: _ :: _ :: _ => exact refused m
    | jumpIfStack equal =>
      match operands with
      | [o] => exact ⟨(jumpIfStack_jumpsTo o equal m).moves rfl,
          (jumpIfStack_jumpsTo o equal m).2.2⟩
      | [] | _ :: _ :: _ => exact refused m
    | _ => exact absurd rfl straight

/-- Carrying out an instruction adds its accounting, which control does not see. -/
theorem execute_moves (i : Instruction) (m : Machine) :
    Moves i.opcode i.operands m (left (execute i) m) ∧ (left (execute i) m).labels = m.labels := by
  have moved := command_moves i.opcode i.operands m
  simp only [left, execute, EStateM.run_bind, EStateM.run_modify] at moved ⊢
  cases ran : (command i.opcode i.operands).run m with
  | error e between => simpa only [ran] using moved
  | ok u between =>
    simp only [ran] at moved ⊢
    obtain ⟨moved, labels⟩ := moved
    refine ⟨?_, labels⟩
    cases moved with
    | stays same calls => exact .stays same calls
    | jumps o rest named found calls => exact .jumps o rest named found calls
    | calls o opcode named found calls => exact .calls o opcode named found calls
    | returns position opcode closed behind => exact .returns position opcode closed behind

/-- From one count of instructions to the next nothing happens, or an instruction fails, or it
succeeds and the loop moves on. -/
inductive Proceeds (p : Program) (x : Machine) : Machine → Prop where
  | rests : Proceeds p x x
  | stops (i : Instruction) (f : Fault) (y : Machine) (fetched : p.fetch? x = some i)
      (ran : (execute i).run x = .error f y) : Proceeds p x y
  | advances (i : Instruction) (between : Machine) (fetched : p.fetch? x = some i)
      (ran : (execute i).run x = .ok () between) : Proceeds p x (advance x between)

theorem step_proceeds (p : Program) (x : Machine) : Proceeds p x ((step p x).machine x) := by
  cases stepped : step p x with
  | ended => exact .rests
  | next m' =>
    obtain ⟨i, between, fetched, ran, rfl⟩ := step_next.mp stepped
    exact .advances i between fetched ran
  | interrupted m' =>
    obtain ⟨i, e, fetched, ran⟩ := step_stopped (.inl stepped)
    exact .stops i e m' fetched ran
  | failed f m' =>
    obtain ⟨i, e, fetched, ran⟩ := step_stopped (.inr ⟨f, stepped⟩)
    exact .stops i e m' fetched ran

theorem reached_proceeds (p : Program) (m : Machine) (n : Nat) :
    Proceeds p (reached p m n) (reached p m (n + 1)) := by
  rcases reached_succ p m n with rests | stepped
  · exact rests ▸ .rests
  · exact stepped ▸ step_proceeds p _

end TacBench.Machine
