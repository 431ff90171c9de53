import TacBench.Machine.Command

/-! What a computation can do to the machine, whether or not it succeeds. A command is made of
elementary changes; a relation that holds across each of them holds across the whole command. -/
namespace TacBench

/-- Commands that can move the program counter themselves. -/
def Opcode.directs : Opcode → Bool
  | .jump | .call | .ret | .jumpIf _ | .jumpIfStack _ => true
  | _ => false

namespace Machine

variable {α β : Type} {R : Machine → Machine → Prop}

/-- The machine that a computation leaves. A failure keeps what was changed before it. -/
def left (x : Exec α) (m : Machine) : Machine :=
  match x.run m with
  | .ok _ m' | .error _ m' => m'

theorem left_of_ok {x : Exec α} {m m' : Machine} {a : α} (ran : x.run m = .ok a m') :
    left x m = m' := by
  simp only [left, ran]

theorem left_of_error {x : Exec α} {m m' : Machine} {f : Fault} (ran : x.run m = .error f m') :
    left x m = m' := by
  simp only [left, ran]

theorem bind_ok {x : Exec α} {f : α → Exec β} {m m' : Machine} {b : β} :
    (x >>= f).run m = .ok b m' ↔ ∃ a between, x.run m = .ok a between ∧
    (f a).run between = .ok b m' := by
  rw [EStateM.run_bind]
  constructor
  · intro ran
    cases first : x.run m with
    | ok a between => exact ⟨a, between, rfl, by simpa only [first] using ran⟩
    | error e between =>
      rw [first] at ran
      contradiction
  · rintro ⟨a, between, first, rest⟩
    rw [first]
    exact rest

theorem execute_ok {i : Instruction} {m m' : Machine} :
    (execute i).run m = .ok () m' ↔
      ∃ between, (command i.opcode i.operands).run m = .ok () between ∧ m' = account i between := by
  rw [execute, bind_ok]
  constructor
  · rintro ⟨_, between, commanded, accounted⟩
    cases accounted
    exact ⟨between, commanded, rfl⟩
  · rintro ⟨between, commanded, rfl⟩
    exact ⟨(), between, commanded, rfl⟩

theorem execute_error {i : Instruction} {m m' : Machine} {f : Fault} :
    (execute i).run m = .error f m' ↔ (command i.opcode i.operands).run m = .error f m' := by
  rw [execute, EStateM.run_bind]
  cases (command i.opcode i.operands).run m with
  | ok u between => exact iff_of_false nofun nofun
  | error e between => exact Iff.rfl

/-- Every outcome of a computation stands in the relation to where it began. -/
def Respects (R : Machine → Machine → Prop) (x : Exec α) : Prop := ∀ m, R m (left x m)

theorem Respects.inspect {f : Machine → Exec α} (each : ∀ m, Respects R (f m)) :
    Respects R (get >>= f) := fun m => each m m

/-- A relation that no change of the stores, the streams or the prices leaves. It says nothing
about the counter, the open calls and the labels. -/
structure Admits (R : Machine → Machine → Prop) : Prop where
  refl : ∀ m, R m m
  trans : ∀ {a b c}, R a b → R b c → R a c
  charged : ∀ m n, R m { m with operandPrice := m.operandPrice + n }
  stored : ∀ m k name v, R m (storeIn k name v m)
  stacked : ∀ m values n, R m { m with stack := values, operandPrice := m.operandPrice + n }
  framed : ∀ m temp locals, R m { m with temp := temp, locals := locals }
  written : ∀ m entries, R m { m with written := entries }
  consumed : ∀ m rest, R m { m with input := rest }

namespace Admits

variable (admits : Admits R)
include admits

theorem pure (a : α) : Respects R (Pure.pure a : Exec α) := admits.refl

theorem throw (f : Fault) : Respects R (MonadExcept.throw f : Exec α) := admits.refl

theorem bind {x : Exec α} {f : α → Exec β} (first : Respects R x) (rest : ∀ a, Respects R (f a)) :
    Respects R (x >>= f) := by
  intro m
  have before := first m
  simp only [left, EStateM.run_bind] at before ⊢
  cases ran : x.run m with
  | ok a between =>
    simp only [ran] at before ⊢
    exact admits.trans before (rest a between)
  | error e between => simpa only [ran] using before

theorem discard {x : Exec α} (first : Respects R x) : Respects R (discard x) :=
  admits.bind first fun _ => admits.pure _

theorem ofValue (r : Except Value.Fault α) : Respects R (ofValue r) := by
  cases r with
  | ok a => exact admits.pure a
  | error f => exact admits.throw _

theorem charge (n : Nat) : Respects R (charge n) := fun m => admits.charged m n

theorem frame (k : FrameKind) : Respects R (frame k) := by
  refine Respects.inspect fun m => ?_
  cases k with
  | globals => exact admits.pure _
  | temporary => exact admits.pure _
  | locals =>
    dsimp only
    split
    · exact admits.pure _
    · exact admits.throw _

theorem read (s : Source) : Respects R (read s) := by
  cases s with
  | value v => exact admits.pure v
  | operand o =>
    cases o with
    | constant v => exact admits.bind (admits.charge _) fun _ => admits.pure v
    | label name => exact admits.throw _
    | dataType t => exact admits.throw _
    | var f name =>
      refine admits.bind (admits.charge _) fun _ => admits.bind (admits.frame _) fun found => ?_
      cases found with
      | none => exact admits.throw _
      | some d =>
        dsimp only
        split
        · exact admits.throw _
        · exact admits.throw _
        · exact admits.pure _

theorem assign (target what : Source) : Respects R (assign target what) := by
  cases target with
  | value v => exact admits.throw _
  | operand o =>
    cases o with
    | constant v => exact admits.throw _
    | label name => exact admits.throw _
    | dataType t => exact admits.throw _
    | var f name =>
      have store : Respects R (do
          let v ← Machine.read what
          modify (storeIn f.kind name v)
          Machine.charge variablePrice) :=
        admits.bind (admits.read what) fun v =>
          admits.bind (fun m => admits.stored m _ _ v) fun _ => admits.charge _
      refine admits.bind (admits.frame _) fun found => ?_
      cases found with
      | none => exact admits.throw _
      | some d =>
        dsimp only
        split
        · exact admits.bind (admits.throw _) fun _ => store
        · exact store

theorem declare (s : Source) : Respects R (declare s) := by
  cases s with
  | value v => exact admits.throw _
  | operand o =>
    cases o with
    | constant v => exact admits.throw _
    | label name => exact admits.throw _
    | dataType t => exact admits.throw _
    | var f name =>
      have store : Respects R (do
          modify (storeIn f.kind name .none)
          Machine.charge variablePrice) :=
        admits.bind (fun m => admits.stored m _ _ _) fun _ => admits.charge _
      refine admits.bind (admits.frame _) fun found => ?_
      cases found with
      | none => exact admits.throw _
      | some d =>
        dsimp only
        split
        · exact admits.bind (admits.throw _) fun _ => store
        · exact store

theorem createFrame : Respects R createFrame := fun m => admits.framed m _ _

theorem pushFrame : Respects R pushFrame := by
  intro m
  simp only [left, Machine.pushFrame, EStateM.run_bind, EStateM.run_get]
  cases m.temp with
  | none => exact admits.refl m
  | some f => exact admits.framed m _ _

theorem popFrame : Respects R popFrame := by
  intro m
  simp only [left, Machine.popFrame, EStateM.run_bind, EStateM.run_get]
  cases m.locals with
  | nil => exact admits.refl m
  | cons f rest => exact admits.framed m _ _

theorem push (s : Source) : Respects R (push s) :=
  admits.bind (admits.read s) fun _ => admits.bind (admits.ofValue _) fun _ =>
    fun m => admits.stacked m _ _

theorem pop (s : Source) : Respects R (pop s) := by
  intro m
  simp only [left, Machine.pop, EStateM.run_bind, EStateM.run_get]
  cases m.stack with
  | nil => exact admits.refl m
  | cons v rest =>
    have taken : Respects R (do
        modify fun m : Machine => { m with stack := rest, operandPrice := m.operandPrice +
          stackPrice }
        Pure.pure v : Exec Value) :=
      admits.bind (fun m => admits.stacked m _ _) fun _ => admits.pure v
    refine admits.bind (admits.ofValue _) (fun _ => ?_) m
    split
    · exact admits.bind (admits.assign _ _) fun _ => taken
    · exact taken

theorem getChar (target text index : Source) : Respects R (getChar target text index) := by
  refine admits.bind (admits.read text) fun s => admits.bind (admits.read index) fun i => ?_
  have report : Respects R (do
      let shown ← Machine.read index
      fail (.badIndex s shown) : Exec Unit) :=
    admits.bind (admits.read index) fun _ => admits.throw _
  split
  · exact admits.assign _ _
  · exact report
  · exact report
  · exact admits.throw _

theorem setChar (target index source : Source) : Respects R (setChar target index source) :=
  admits.bind (admits.read _) fun _ => admits.bind (admits.read _) fun _ =>
    admits.bind (admits.ofValue _) fun _ => admits.bind (admits.read _) fun _ => admits.throw _

theorem textLength (target text : Source) : Respects R (textLength target text) :=
  admits.bind (admits.read _) fun _ => admits.bind (admits.ofValue _) fun _ => admits.assign _ _

theorem emit (c : Channel) (text : Text) : Respects R (emit c text) := by
  refine admits.bind (fun m => admits.written m _) fun _ => Respects.inspect fun m => ?_
  split
  · exact admits.throw _
  · exact admits.pure _

theorem write (s : Source) : Respects R (write s) :=
  admits.bind (admits.read _) fun _ => admits.bind (admits.ofValue _) fun _ => admits.emit _ _

theorem readInput (target type : Source) : Respects R (readInput target type) := by
  have line : Respects R readLine := fun m => admits.consumed m _
  refine admits.bind line fun s => ?_
  split
  · split
    · exact admits.bind (admits.throw _) fun _ => admits.assign _ _
    · exact admits.assign _ _
  · exact admits.assign _ _
  · split
    · exact admits.throw _
    · split <;> exact admits.assign _ _
  · exact admits.assign _ _
  · exact admits.throw _
  · exact admits.throw _

theorem binary (f : Value → Value → Except Value.Fault Value) (target l r : Source) :
    Respects R (binary f target l r) :=
  admits.bind (admits.read _) fun _ => admits.bind (admits.read _) fun _ =>
    admits.bind (admits.ofValue _) fun _ => admits.assign _ _

theorem binaryStack (f : Value → Value → Except Value.Fault Value) : Respects R (binaryStack f) :=
  admits.bind (admits.pop _) fun _ => admits.bind (admits.pop _) fun _ =>
    admits.bind (admits.ofValue _) fun _ => admits.push _

theorem unary (f : Value → Except Value.Fault Value) (target source : Source) :
    Respects R (unary f target source) :=
  admits.bind (admits.read _) fun _ => admits.bind (admits.ofValue _) fun _ => admits.assign _ _

theorem unaryStack (f : Value → Except Value.Fault Value) : Respects R (unaryStack f) :=
  admits.bind (admits.pop _) fun _ => admits.bind (admits.ofValue _) fun _ => admits.push _

theorem typeName (target source : Source) : Respects R (typeName target source) :=
  admits.bind (admits.read _) fun _ => admits.bind (admits.read _) fun _ => admits.assign _ _

/-- Every command that does not direct the flow of control. -/
theorem command (c : Opcode) (operands : List Operand) (straight : c.directs = false) :
    Respects R (command c operands) := by
  refine Respects.inspect fun m => ?_
  unfold commandWithin
  split
  · exact admits.assign _ _
  · exact admits.createFrame
  · exact admits.pushFrame
  · exact admits.popFrame
  · exact admits.declare _
  · contradiction
  · contradiction
  · contradiction
  · exact admits.pure _
  · contradiction
  · contradiction
  · exact admits.write _
  · exact admits.readInput _ _
  · exact admits.push _
  · exact admits.discard (admits.pop _)
  · exact admits.discard (admits.pop _)
  · exact fun m => admits.stacked m [] 0
  · exact admits.binary _ _ _ _
  · exact admits.binaryStack _
  · exact admits.unary _ _ _
  · exact admits.unaryStack _
  · exact admits.typeName _ _
  · exact admits.binary _ _ _ _
  · exact admits.textLength _ _
  · exact admits.getChar _ _ _
  · exact admits.setChar _ _ _
  · exact Respects.inspect fun _ => admits.bind (admits.ofValue _) fun _ => admits.emit _ _
  · exact admits.bind (admits.read _) fun _ => admits.bind (admits.ofValue _) fun _ =>
      admits.emit _ _
  · exact Respects.inspect fun _ => admits.emit _ _
  · exact admits.throw _

end Admits
end Machine
end TacBench
