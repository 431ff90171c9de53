import TacBench.Proofs.Phases

/-! What instructions cost. The price of the operands is paid bit by bit, wherever a command reads,
writes, pushes or pops; in sum it depends on the command and on what its operands are, never on the
values. The price of a run is therefore known from the instructions that it has carried out. -/
namespace TacBench

/-- What an operand is, whatever its value or name. -/
inductive Operand.Form where
  | constant
  | var
  | label
  | dataType
  deriving DecidableEq, Repr

def Operand.form : Operand → Operand.Form
  | .constant _ => .constant
  | .var _ _ => .var
  | .label _ => .label
  | .dataType _ => .dataType

/-- The part that an operand plays in its command. -/
inductive Role where
  /-- Written or declared. -/
  | target
  /-- Read, so many times. -/
  | source (times : Nat)
  /-- The name of a label or of a type. -/
  | name
  deriving DecidableEq, Repr

def Role.price : Role → Operand.Form → Nat
  | .target, .var => 4
  | .source times, .constant => times * 1
  | .source times, .var => times * 4
  | _, _ => 0

namespace Opcode

/-- The parts of the operands, in order. -/
def roles : Opcode → List Role
  | .createFrame | .pushFrame | .popFrame | .ret | .clear | .binaryStack _ | .unaryStack _
  | .break | .groot => []
  | .defVar | .pop => [.target]
  | .jump | .call | .label | .jumpIfStack _ => [.name]
  | .write | .push | .dprint => [.source 1]
  | .move | .unary _ | .length => [.target, .source 1]
  | .type => [.target, .source 2]
  | .read => [.target, .name]
  | .binary _ | .concat | .getChar | .setChar => [.target, .source 1, .source 1]
  | .jumpIf _ => [.name, .source 1, .source 1]

/-- How many values are taken from the data stack one by one. -/
def pops : Opcode → Nat
  | .binaryStack _ | .jumpIfStack _ => 2
  | .unaryStack _ | .pop => 1
  | _ => 0

def pushes : Opcode → Nat
  | .binaryStack _ | .unaryStack _ | .push => 1
  | _ => 0

/-- The price of the operands and of the use of the data stack. -/
def operandCost (c : Opcode) (forms : List Operand.Form) : Nat :=
  (List.zipWith Role.price c.roles forms).foldl (· + ·) 0 + 2 * (c.pops + c.pushes)

/-- The names of the commands by price. -/
def tariff : List (Nat × List String) :=
  [(0, ["LABEL", "BREAK", "DPRINT", "GROOT"]),
    (1, ["MOVE", "DEFVAR", "PUSHS", "POPS", "INT2FLOATS", "FLOAT2INTS", "FLOAT2R2EINTS",
      "FLOAT2R2OINTS", "INT2CHARS", "STRI2INTS", "JUMPIFEQS", "JUMPIFNEQS"]),
    (2, ["PUSHFRAME", "POPFRAME", "CREATEFRAME", "CLEARS", "INT2FLOAT", "FLOAT2INT", "FLOAT2R2EINT",
      "FLOAT2R2OINT", "INT2CHAR", "STRI2INT", "JUMP", "JUMPIFEQ", "JUMPIFNEQ", "TYPE"]),
    (3, ["ADDS", "SUBS", "MULS", "DIVS", "LTS", "GTS", "EQS", "ANDS", "ORS", "NOTS"]),
    (4, ["ADD", "SUB", "MUL", "DIV", "LT", "GT", "EQ", "AND", "OR", "NOT", "READ", "WRITE",
      "CONCAT", "STRLEN", "GETCHAR", "SETCHAR"]),
    (5, ["CALL", "RETURN"])]

def listedPrice? (name : String) : Option Nat :=
  (tariff.find? fun entry => name ∈ entry.2).map (·.1)

theorem listedPrice?_name (c : Opcode) : listedPrice? c.name = some c.price := by
  have listed : ∀ o ∈ all, listedPrice? o.name = some o.price := by decide +kernel
  exact listed c (mem_all c)

end Opcode

/-- The whole price of one execution. -/
def Instruction.cost (i : Instruction) : Nat :=
  i.opcode.price + i.opcode.operandCost (i.operands.map Operand.form)

namespace Machine

variable {α β : Type} {x : Exec α} {k : α → Exec β} {a b n : Nat} {m m' : Machine} {p : Program}
  {start : Machine}

/-- Nothing has been paid but so much for operands. -/
structure Pays (n : Nat) (m m' : Machine) : Prop where
  operands : m'.operandPrice = m.operandPrice + n
  instructions : m'.instructionPrice = m.instructionPrice
  executed : m'.executed = m.executed
  interruptOn : m'.interruptOn = m.interruptOn

theorem Pays.nothing (m : Machine) : Pays 0 m m := ⟨rfl, rfl, rfl, rfl⟩

theorem Pays.trans {m'' : Machine} (first : Pays a m m') (second : Pays b m' m'') :
    Pays (a + b) m m'' := by
  constructor
  · rw [second.operands, first.operands, Nat.add_assoc]
  · exact second.instructions.trans first.instructions
  · exact second.executed.trans first.executed
  · exact second.interruptOn.trans first.interruptOn

/-- A computation that succeeds pays so much, from whatever machine it starts. It is interrupted
only where interrupts are asked for. -/
def Costs (n : Nat) (x : Exec α) : Prop :=
  ∀ m, Ends x m (fun f _ => f = .interrupted → m.interruptOn ≠ none) fun _ m' => Pays n m m'

namespace Costs

theorem of_eq (costs : Costs a x) (same : a = b) : Costs b x := same ▸ costs

theorem pure (value : α) : Costs 0 (Pure.pure value : Exec α) := Pays.nothing

theorem throw (f : Fault) (other : f ≠ .interrupted) : Costs n (MonadExcept.throw f : Exec α) :=
  fun _ same => absurd same other

theorem bind (first : Costs a x) (rest : ∀ value, Costs b (k value)) : Costs (a + b) (x >>= k) := by
  intro m
  apply Ends.bind
  cases ran : x.run m with
  | error f between => exact .of_error ran ((first m).error ran)
  | ok value between =>
    have paid := (first m).ok ran
    have later := rest value between
    refine .of_ok ran ?_
    cases continued : (k value).run between with
    | error f after =>
      refine .of_error continued fun stopped => ?_
      rw [← paid.interruptOn]
      exact later.error continued stopped
    | ok result after => exact .of_ok continued (paid.trans (later.ok continued))

/-- What comes after something free of charge is what is paid for. -/
theorem after (first : Costs 0 x) (rest : ∀ value, Costs n (k value)) : Costs n (x >>= k) :=
  (first.bind rest).of_eq (Nat.zero_add n)

/-- Nothing is known of the price of what cannot succeed. -/
theorem doomed (first : Costs a x) (rest : ∀ b value, Costs b (k value)) : Costs n (x >>= k) := by
  intro m
  have low := first.bind (rest 0) m
  have high := first.bind (rest 1) m
  unfold Ends at low high ⊢
  cases ran : (x >>= k).run m with
  | error f between => simpa only [ran] using low
  | ok result between =>
    simp only [ran] at low high
    have paid := low.operands.symm.trans high.operands
    omega

theorem refuse (e : Error) (k : Unit → Exec β) : Costs n (fail e >>= k) := fun _ => nofun

theorem discard (costs : Costs n x) : Costs n (discard x) :=
  costs.bind fun _ => pure _

theorem inspect {f : Machine → Exec α} (each : ∀ m, Costs n (f m)) : Costs n (get >>= f) := by
  intro m
  exact Ends.bind (.of_ok (EStateM.run_get m) (each m m))

theorem modify {f : Machine → Machine} (pays : ∀ m, Pays n m (f m)) :
    Costs n (modify f : Exec Unit) := pays

theorem ofValue (r : Except Value.Fault α) : Costs 0 (ofValue r) := by
  cases r with
  | ok value => exact pure value
  | error f => exact throw _ nofun

end Costs

theorem frame_costs (kind : FrameKind) : Costs 0 (frame kind) := by
  refine Costs.inspect fun m => ?_
  cases kind with
  | globals => exact .pure _
  | temporary => exact .pure _
  | locals =>
    dsimp only
    split
    · exact .pure _
    · exact .throw _ nofun

theorem charge_costs (n : Nat) : Costs n (charge n) := .modify fun _ => ⟨rfl, rfl, rfl, rfl⟩

theorem read_costs (s : Source) : Costs (readPrice s) (read s) := by
  cases s with
  | value v => exact .pure v
  | operand o =>
    cases o with
    | constant v => exact ((charge_costs _).bind fun _ => .pure v).of_eq rfl
    | label name => exact .throw _ nofun
    | dataType t => exact .throw _ nofun
    | var f name =>
      refine ((charge_costs _).bind fun _ => (frame_costs _).bind (b := 0) fun found =>
        ?_).of_eq rfl
      cases found with
      | none => exact .throw _ nofun
      | some d =>
        dsimp only
        split
        · exact .throw _ nofun
        · exact .throw _ nofun
        · exact .pure _

theorem storeIn_pays (kind : FrameKind) (name : String) (v : Value) (m : Machine) :
    Pays 0 m (storeIn kind name v m) := by
  cases kind with
  | temporary => exact ⟨rfl, rfl, rfl, rfl⟩
  | globals => exact ⟨rfl, rfl, rfl, rfl⟩
  | locals =>
    unfold storeIn
    dsimp only
    split <;> exact ⟨rfl, rfl, rfl, rfl⟩

/-- A variable is stored and then paid for. -/
theorem store_costs (kind : FrameKind) (name : String) (v : Value) :
    Costs 4 (do
      modify (storeIn kind name v)
      charge variablePrice) :=
  ((Costs.modify (storeIn_pays kind name v)).bind fun _ => charge_costs _).of_eq rfl

theorem assign_costs (o : Operand) (what : Source) :
    Costs (readPrice what + Role.target.price o.form) (assign (.operand o) what) := by
  cases o with
  | constant v => exact .throw _ nofun
  | label name => exact .throw _ nofun
  | dataType t => exact .throw _ nofun
  | var f name =>
    have store : Costs (readPrice what + 4) (do
        let v ← read what
        modify (storeIn f.kind name v)
        charge variablePrice) :=
      (read_costs what).bind fun v => store_costs f.kind name v
    refine (frame_costs _).after fun found => ?_
    cases found with
    | none => exact .throw _ nofun
    | some d =>
      dsimp only
      split
      · exact .refuse _ _
      · exact store

theorem assign_value_costs (o : Operand) (v : Value) :
    Costs (Role.target.price o.form) (assign (.operand o) (.value v)) :=
  (assign_costs o (.value v)).of_eq (Nat.zero_add _)

theorem declare_costs (o : Operand) : Costs (Role.target.price o.form) (declare (.operand o)) := by
  cases o with
  | constant v => exact .throw _ nofun
  | label name => exact .throw _ nofun
  | dataType t => exact .throw _ nofun
  | var f name =>
    have store := store_costs f.kind name .none
    refine (frame_costs _).after fun found => ?_
    cases found with
    | none => exact .throw _ nofun
    | some d =>
      dsimp only
      split
      · exact .refuse _ _
      · exact store

theorem target_costs (o : Operand) : Costs 0 (target (.operand o)) := by
  intro m
  have ran := target_run o m
  cases found : m.labels.find? (Program.labelOf o) with
  | none =>
    rw [found] at ran
    exact .of_error ran nofun
  | some position =>
    rw [found] at ran
    exact .of_ok ran (.nothing m)

theorem jump_costs (o : Operand) : Costs 0 (jump (.operand o)) :=
  (target_costs o).after fun _ => .modify fun _ => ⟨rfl, rfl, rfl, rfl⟩

theorem call_costs (o : Operand) : Costs 0 (call (.operand o)) :=
  (target_costs o).after fun _ => .modify fun _ => ⟨rfl, rfl, rfl, rfl⟩

theorem returnBack_costs : Costs 0 returnBack := by
  intro m
  apply Ends.bind
  refine .of_ok (EStateM.run_get m) ?_
  cases m.calls with
  | nil => exact nofun
  | cons position rest => exact ⟨rfl, rfl, rfl, rfl⟩

theorem jumpIf_costs (o : Operand) (l r : Source) (equal : Bool) :
    Costs (readPrice l + readPrice r) (jumpIf (.operand o) l r equal) := by
  refine (read_costs l).bind fun a => (read_costs r).bind (b := 0) fun b => ?_
  split
  · exact jump_costs o
  · exact .pure _

theorem pushFrame_costs : Costs 0 pushFrame := by
  intro m
  apply Ends.bind
  refine .of_ok (EStateM.run_get m) ?_
  cases m.temp with
  | none => exact nofun
  | some top => exact ⟨rfl, rfl, rfl, rfl⟩

theorem popFrame_costs : Costs 0 popFrame := by
  intro m
  apply Ends.bind
  refine .of_ok (EStateM.run_get m) ?_
  cases m.locals with
  | nil => exact nofun
  | cons top rest => exact ⟨rfl, rfl, rfl, rfl⟩

theorem push_costs (s : Source) : Costs (readPrice s + 2) (push s) :=
  (read_costs s).bind fun _ => (Costs.ofValue _).after fun _ => .modify fun _ =>
    ⟨rfl, rfl, rfl, rfl⟩

theorem push_value_costs (v : Value) : Costs 2 (push (.value v)) :=
  (push_costs (.value v)).of_eq (Nat.zero_add _)

/-- The value on top is paid for after it has been assigned, if there is a place for it. -/
theorem pop_costs (s : Source) {n : Nat}
    (placed : ∀ v, isTarget s = true → Costs n (assign s (.value v)))
    (nowhere : isTarget s = false → n = 0) : Costs (n + 2) (pop s) := by
  refine Costs.inspect fun m => ?_
  have taken (v : Value) (rest : List Value) : Costs 2 (do
      modify fun m : Machine => { m with stack := rest, operandPrice := m.operandPrice +
        stackPrice }
      return v : Exec Value) := by
    refine (Costs.modify fun _ => ?_).bind fun _ => .pure v
    exact ⟨rfl, rfl, rfl, rfl⟩
  cases m.stack with
  | nil => exact .throw _ nofun
  | cons v rest =>
    refine (Costs.ofValue _).after fun _ => ?_
    split
    · rename_i there
      exact (placed v there).bind fun _ => taken v rest
    · rename_i absent
      rw [nowhere (by simpa using absent), Nat.zero_add]
      exact taken v rest

theorem pop_operand_costs (o : Operand) : Costs (Role.target.price o.form + 2) (pop (.operand o)) :=
  pop_costs _ (fun v _ => assign_value_costs o v) nofun

theorem popValue_costs : Costs 2 popValue := pop_costs _ nofun fun _ => rfl

theorem jumpIfStack_costs (o : Operand) (equal : Bool) : Costs 4 (jumpIfStack (.operand o) equal) :=
  popValue_costs.bind fun l => popValue_costs.bind fun r =>
    jumpIf_costs o (.value l) (.value r) equal

theorem getChar_costs (o : Operand) (text index : Source) :
    Costs (readPrice text + (readPrice index + Role.target.price o.form))
      (getChar (.operand o) text index) := by
  refine (read_costs text).bind fun s => (read_costs index).bind fun i => ?_
  split
  · exact assign_value_costs o _
  · exact (read_costs index).doomed fun _ _ => .throw _ nofun
  · exact (read_costs index).doomed fun _ _ => .throw _ nofun
  · exact .throw _ nofun

/-- Characters cannot be replaced, so there is no price of it. -/
theorem setChar_costs (target index source : Source) : Costs n (setChar target index source) :=
  (read_costs target).doomed fun _ _ => (read_costs source).doomed fun _ _ =>
    (Costs.ofValue _).doomed fun _ _ => (read_costs index).doomed fun _ _ => .throw _ nofun

/-- Only output can be interrupted, and it is free of charge. -/
theorem emit_costs (c : Channel) (text : Text) : Costs 0 (emit c text) := by
  refine Costs.after (x := modify _) (.modify fun _ => ⟨rfl, rfl, rfl, rfl⟩) fun _ m => ?_
  refine Ends.bind (.of_ok (EStateM.run_get m) ?_)
  split
  · rename_i stops
    have found : m.interruptOn = some text := by simp_all
    exact fun _ => found ▸ nofun
  · exact .nothing m

theorem write_costs (s : Source) : Costs (readPrice s) (write s) :=
  (read_costs s).bind fun _ => (Costs.ofValue _).after fun _ => emit_costs _ _

theorem writeDebug_costs (s : Source) : Costs (readPrice s) (writeDebug s) :=
  (read_costs s).bind fun _ => (Costs.ofValue _).after fun _ => emit_costs _ _

/-- The line that is read costs nothing, whatever becomes of it. -/
theorem readInput_costs (o type : Operand) :
    Costs (Role.target.price o.form) (readInput (.operand o) (.operand type)) := by
  have line : Costs 0 readLine := fun _ => ⟨rfl, rfl, rfl, rfl⟩
  refine line.after fun s => ?_
  cases type with
  | constant v => exact .throw _ nofun
  | var f name => exact .throw _ nofun
  | label name => exact .throw _ nofun
  | dataType t =>
    cases t with
    | string =>
      dsimp only
      split
      · exact fun _ => nofun
      · exact assign_value_costs o _
    | int => exact assign_value_costs o _
    | float =>
      dsimp only
      split
      · exact .throw _ nofun
      · split <;> exact assign_value_costs o _
    | bool => exact assign_value_costs o _

theorem binary_costs (f : Value → Value → Except Value.Fault Value) (o : Operand) (l r : Source) :
    Costs (readPrice l + (readPrice r + Role.target.price o.form)) (binary f (.operand o) l r) :=
  (read_costs l).bind fun _ => (read_costs r).bind fun _ => (Costs.ofValue _).after fun v =>
    assign_value_costs o v

theorem binaryStack_costs (f : Value → Value → Except Value.Fault Value) :
    Costs 6 (binaryStack f) :=
  popValue_costs.bind fun _ => popValue_costs.bind fun _ => (Costs.ofValue _).after fun v =>
    push_value_costs v

theorem unary_costs (f : Value → Except Value.Fault Value) (o : Operand) (s : Source) :
    Costs (readPrice s + Role.target.price o.form) (unary f (.operand o) s) :=
  (read_costs s).bind fun _ => (Costs.ofValue _).after fun v => assign_value_costs o v

theorem unaryStack_costs (f : Value → Except Value.Fault Value) : Costs 4 (unaryStack f) :=
  popValue_costs.bind fun _ => (Costs.ofValue _).after fun v => push_value_costs v

theorem typeName_costs (o : Operand) (s : Source) :
    Costs (readPrice s + (readPrice s + Role.target.price o.form)) (typeName (.operand o) s) :=
  (read_costs s).bind fun _ => (read_costs s).bind fun _ => assign_value_costs o _

section Commands

attribute [local simp] Opcode.operandCost Opcode.roles Opcode.pops Opcode.pushes

@[local simp]
theorem source_price (o : Operand) (times : Nat) :
    (Role.source times).price o.form = times * readPrice (.operand o) := by
  cases o <;> rfl

@[local simp]
theorem name_price (form : Operand.Form) : Role.name.price form = 0 := rfl

/-- Every command costs what the parts and the forms of its operands say. -/
theorem command_costs (c : Opcode) (operands : List Operand) :
    Costs (c.operandCost (operands.map Operand.form)) (command c operands) := by
  refine Costs.inspect fun m => ?_
  unfold commandWithin
  -- the sums differ in the order in which the operands are paid for
  split <;> rename_i named
  · match operands, named with
    | [a, b], rfl => exact (assign_costs a (.operand b)).of_eq (by simp; omega)
  · match operands, named with
    | [], rfl => exact .modify fun _ => ⟨rfl, rfl, rfl, rfl⟩
  · match operands, named with
    | [], rfl => exact pushFrame_costs
  · match operands, named with
    | [], rfl => exact popFrame_costs
  · match operands, named with
    | [a], rfl => exact (declare_costs a).of_eq (by simp)
  · match operands, named with
    | [a], rfl => exact jump_costs a
  · match operands, named with
    | [a], rfl => exact call_costs a
  · match operands, named with
    | [], rfl => exact returnBack_costs
  · match operands, named with
    | [a], rfl => exact .pure ()
  · match operands, named with
    | [a, b, c], rfl => exact (jumpIf_costs a (.operand b) (.operand c) _).of_eq (by simp)
  · match operands, named with
    | [a], rfl => exact jumpIfStack_costs a _
  · match operands, named with
    | [a], rfl => exact (write_costs (.operand a)).of_eq (by simp)
  · match operands, named with
    | [a, b], rfl => exact (readInput_costs a b).of_eq (by simp)
  · match operands, named with
    | [a], rfl => exact (push_costs (.operand a)).of_eq (by simp)
  · match operands, named with
    | [a], rfl => exact (pop_operand_costs a).discard.of_eq (by simp)
  · match operands, named with
    | [], rfl => exact popValue_costs.discard
  · match operands, named with
    | [], rfl => exact .modify fun _ => ⟨rfl, rfl, rfl, rfl⟩
  · match operands, named with
    | [a, b, c], rfl => exact (binary_costs _ a (.operand b) (.operand c)).of_eq (by simp; omega)
  · match operands, named with
    | [], rfl => exact binaryStack_costs _
  · match operands, named with
    | [a, b], rfl => exact (unary_costs _ a (.operand b)).of_eq (by simp; omega)
  · match operands, named with
    | [], rfl => exact unaryStack_costs _
  · match operands, named with
    | [a, b], rfl => exact (typeName_costs a (.operand b)).of_eq (by simp; omega)
  · match operands, named with
    | [a, b, c], rfl => exact (binary_costs _ a (.operand b) (.operand c)).of_eq (by simp; omega)
  · match operands, named with
    | [a, b], rfl => exact (unary_costs _ a (.operand b)).of_eq (by simp; omega)
  · match operands, named with
    | [a, b, c], rfl => exact (getChar_costs a (.operand b) (.operand c)).of_eq (by simp; omega)
  · exact setChar_costs _ _ _
  · match operands, named with
    | [], rfl => exact .inspect fun m => (Costs.ofValue m.summary).after fun _ => emit_costs _ _
  · match operands, named with
    | [a], rfl => exact (writeDebug_costs (.operand a)).of_eq (by simp)
  · match operands, named with
    | [], rfl => exact .inspect fun m => emit_costs _ _
  · exact .throw _ nofun

end Commands

/-- An instruction that has been carried out is counted once and paid for by its command and the
forms of its operands. -/
theorem execute_accounts {i : Instruction} (ran : (execute i).run m = .ok () m') :
    m'.executed = m.executed + 1 ∧
    m'.instructionPrice = m.instructionPrice + i.opcode.price ∧
    m'.operandPrice = m.operandPrice + i.opcode.operandCost (i.operands.map Operand.form) := by
  obtain ⟨between, commanded, rfl⟩ := execute_ok.mp ran
  have paid := (command_costs i.opcode i.operands m).ok commanded
  refine ⟨?_, ?_, paid.operands⟩
  · exact congrArg (· + 1) paid.executed
  · exact congrArg (· + i.opcode.price) paid.instructions

/-- The instructions of the first steps of a run. -/
def carriedOut (p : Program) (start : Machine) (n : Nat) : List Instruction :=
  (List.range n).filterMap fun k => (stateAt p start k).bind p.fetch?

/-- What the first steps of a run cost. -/
def totalCost (p : Program) (start : Machine) (n : Nat) : Nat :=
  ((carriedOut p start n).map Instruction.cost).foldl (· + ·) 0

theorem carriedOut_succ {i : Instruction} (reached : stateAt p start n = some m)
    (fetched : p.fetch? m = some i) : carriedOut p start (n + 1) = carriedOut p start n ++ [i] := by
  have found : (stateAt p start n).bind p.fetch? = some i := by rw [reached]; exact fetched
  simp [carriedOut, List.range_succ, found]

theorem step_price (stepped : step p m = .next m') :
    ∃ i, p.fetch? m = some i ∧ m'.executed = m.executed + 1 ∧ m'.price = m.price + i.cost := by
  obtain ⟨i, between, fetched, ran, rfl⟩ := step_next.mp stepped
  obtain ⟨executed, instructions, operands⟩ := execute_accounts ran
  have same : (advance m between).executed = between.executed ∧
      (advance m between).price = between.price := by
    unfold advance
    split <;> exact ⟨rfl, rfl⟩
  refine ⟨i, fetched, same.1.trans executed, same.2.trans ?_⟩
  simp only [price, instructions, operands, Instruction.cost]
  omega

/-- The price of every state of a run is that of the instructions before it. -/
theorem stateAt_price (reached : stateAt p start n = some m) :
    (carriedOut p start n).length = n ∧ m.executed = start.executed + n ∧
      m.price = start.price + totalCost p start n := by
  induction n generalizing m with
  | zero =>
    cases Option.some.inj reached
    exact ⟨rfl, rfl, rfl⟩
  | succ n ih =>
    obtain ⟨before, earlier, stepped⟩ := stateAt_succ.mp reached
    obtain ⟨count, executed, paid⟩ := ih earlier
    obtain ⟨i, fetched, counted, charged⟩ := step_price stepped
    have last := carriedOut_succ earlier fetched
    refine ⟨?_, ?_, ?_⟩
    · rw [last, List.length_append, count]
      rfl
    · rw [counted, executed, Nat.add_assoc]
    · rw [charged, paid, totalCost, totalCost, last, List.map_append, List.foldl_append,
        Nat.add_assoc]
      rfl

theorem stateAt_interruptOn (reached : stateAt p start n = some m) :
    m.interruptOn = start.interruptOn := by
  induction n generalizing m with
  | zero =>
    cases Option.some.inj reached
    rfl
  | succ n ih =>
    obtain ⟨before, earlier, stepped⟩ := stateAt_succ.mp reached
    obtain ⟨i, between, fetched, ran, rfl⟩ := step_next.mp stepped
    obtain ⟨after, commanded, rfl⟩ := execute_ok.mp ran
    have kept := ((command_costs i.opcode i.operands before).ok commanded).interruptOn
    have same : (advance before (account i after)).interruptOn = after.interruptOn := by
      unfold advance
      split <;> rfl
    rw [same, kept, ih earlier]

theorem step_interrupted (stepped : step p m = .interrupted m') : m.interruptOn ≠ none := by
  unfold step at stepped
  split at stepped
  · cases stepped
  · rename_i i fetched
    split at stepped
    · cases stepped
    · rename_i between ran
      exact (command_costs i.opcode i.operands m).error (execute_error.mp ran) rfl
    · cases stepped

/-- Each instruction that is carried out counts once; its price is listed by its name, and its
operands cost what their forms and parts in the command say. So every state of a run costs the sum
over the instructions before it, whatever the data, and so does a run that comes to its end; only
output that is interrupted can end a run without an error before. -/
theorem price_sums_instruction_costs (p : Program) (input : String) (interruptOn : Option Text) :
    let start := p.start input interruptOn
    (∀ i m m', (execute i).run m = .ok () m' →
      m'.executed = m.executed + 1 ∧
      some m'.instructionPrice = (Opcode.listedPrice? i.opcode.name).map (m.instructionPrice + ·) ∧
      m'.operandPrice = m.operandPrice + i.opcode.operandCost (i.operands.map Operand.form)) ∧
    (∀ n m, stateAt p start n = some m →
      (carriedOut p start n).length = n ∧ m.executed = n ∧ m.price = totalCost p start n) ∧
    ∀ fuel m, run p fuel start = (.finished, m) →
      stateAt p start m.executed = some m ∧ m.price = totalCost p start m.executed ∨
      interruptOn ≠ none ∧ ∃ n before, stateAt p start n = some before ∧
      step p before = .interrupted m := by
  intro start
  have states (n : Nat) (m : Machine) (reached : stateAt p start n = some m) :
      (carriedOut p start n).length = n ∧ m.executed = n ∧ m.price = totalCost p start n := by
    obtain ⟨count, executed, paid⟩ := stateAt_price reached
    have free : start.executed = 0 ∧ start.price = 0 := ⟨rfl, rfl⟩
    rw [free.1, Nat.zero_add] at executed
    rw [free.2, Nat.zero_add] at paid
    exact ⟨count, executed, paid⟩
  refine ⟨?_, states, ?_⟩
  · intro i m m' ran
    obtain ⟨executed, instructions, operands⟩ := execute_accounts ran
    refine ⟨executed, ?_, operands⟩
    rw [Opcode.listedPrice?_name, instructions]
    rfl
  · intro fuel m ran
    obtain ⟨n, before, reached, ends⟩ := run_endsAt (n := 0) rfl ran nofun
    cases ends with
    | ended stepped =>
      obtain ⟨-, executed, paid⟩ := states n m reached
      rw [executed]
      exact .inl ⟨reached, paid⟩
    | interrupted m stepped =>
      have asked := step_interrupted stepped
      rw [stateAt_interruptOn reached] at asked
      exact .inr ⟨asked, n, before, reached, stepped⟩

/-- Reads a number, adds one to it on the data stack and writes the type of the sum. -/
def typedSum : Program where
  instructions :=
    let x : Operand := .var ⟨.globals, true, true⟩ "x"
    #[⟨.defVar, [x], 2, "DEFVAR GF@x"⟩,
      ⟨.read, [x, .dataType .int], 3, "READ GF@x int"⟩,
      ⟨.push, [x], 4, "PUSHS GF@x"⟩,
      ⟨.push, [.constant (.int 1)], 5, "PUSHS int@1"⟩,
      ⟨.binaryStack .add, [], 6, "ADDS"⟩,
      ⟨.pop, [x], 7, "POPS GF@x"⟩,
      ⟨.type, [x, x], 8, "TYPE GF@x GF@x"⟩,
      ⟨.write, [x], 9, "WRITE GF@x"⟩]

def typedSumRun : Outcome × Machine := run typedSum 9 (typedSum.start "many\n" none)

/-- The line that is read holds no number; that changes the sum and not the price. -/
theorem typedSum_price :
    let start := typedSum.start "many\n" none
    typedSumRun = (.finished, typedSumRun.2) ∧ typedSumRun.2.executed = 8 ∧
    typedSumRun.2.price = totalCost typedSum start 8 ∧ totalCost typedSum start 8 = 62 := by
  intro start
  have outcome : typedSumRun.1 = .finished := by decide +kernel
  have executed : typedSumRun.2.executed = 8 := by decide +kernel
  have total : totalCost typedSum start 8 = 62 := by decide +kernel
  have whole (r : Outcome × Machine) (told : r.1 = .finished) : r = (.finished, r.2) :=
    Prod.ext told rfl
  have ran := whole typedSumRun outcome
  obtain ⟨-, -, ends⟩ := price_sums_instruction_costs typedSum "many\n" none
  rcases ends 9 _ ran with ⟨-, paid⟩ | ⟨asked, -⟩
  · rw [executed] at paid
    exact ⟨ran, executed, paid, total⟩
  · exact absurd rfl asked

end Machine
end TacBench
