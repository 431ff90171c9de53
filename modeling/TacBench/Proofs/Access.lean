import TacBench.Proofs.Effect

/-! The accesses as equations: what each gives, what it costs and what it changes. The price of a
read is paid whether or not the read succeeds. -/
namespace TacBench.Machine

variable {m m' : Machine}

def charged (m : Machine) (n : Nat) : Machine := { m with operandPrice := m.operandPrice + n }

/-- The frame of a kind, without the machine that it was looked up in. -/
def frameOf (m : Machine) : FrameKind → Except Fault (Option Frame)
  | .temporary => .ok m.temp
  | .globals => .ok (some m.globals)
  | .locals => match m.locals with
    | f :: _ => .ok (some f)
    | [] => .error (.language .missingFrame)

theorem frame_run (k : FrameKind) (m : Machine) :
    (frame k).run m = match frameOf m k with
      | .ok f => .ok f m
      | .error e => .error e m := by
  cases k with
  | temporary => rfl
  | globals => rfl
  | locals =>
    simp only [frame, frameOf, EStateM.run_bind, EStateM.run_get]
    cases m.locals <;> rfl

/-- What reading a source costs. -/
def readPrice : Source → Nat
  | .operand (.constant _) => constantPrice
  | .operand (.var _ _) => variablePrice
  | _ => 0

/-- The value that reading a source gives, or the fault. -/
def lookup (m : Machine) (s : Source) : Except Fault Value :=
  match (read s).run m with
  | .ok v _ => .ok v
  | .error f _ => .error f

/-- The value of a variable in a frame that has been looked up. -/
def valueIn (f : FrameRef) (name : String) : Option Frame → Except Fault Value
  | none => .error .temporaryRead
  | some d => match d.find? name with
    | none => .error (.unknownName name)
    | some .none => .error (.language (.undefinedVariable f.spelling name))
    | some v => .ok v

theorem read_variable_run (f : FrameRef) (name : String) (m : Machine) :
    (read (.operand (.var f name))).run m = match frameOf m f.kind >>= valueIn f name with
      | .ok v => .ok v (m.charged variablePrice)
      | .error e => .error e (m.charged variablePrice) := by
  have same : frameOf (m.charged variablePrice) f.kind = frameOf m f.kind := by
    cases f.kind <;> rfl
  change (do
    match ← frame f.kind with
    | none => throw .temporaryRead
    | some d => match d.find? name with
      | none => throw (.unknownName name)
      | some .none => fail (.undefinedVariable f.spelling name)
      | some v => return v : Exec Value).run (m.charged variablePrice) = _
  rw [EStateM.run_bind, frame_run, same]
  cases frameOf m f.kind with
  | error e => rfl
  | ok found =>
    cases found with
    | none => rfl
    | some d =>
      simp only [bind, Except.bind, valueIn]
      cases d.find? name with
      | none => rfl
      | some v => cases v <;> rfl

/-- Reading changes nothing but the price, and that whether or not it succeeds. -/
theorem read_run (s : Source) (m : Machine) :
    (read s).run m = match lookup m s with
      | .ok v => .ok v (m.charged (readPrice s))
      | .error f => .error f (m.charged (readPrice s)) := by
  cases s with
  | value v => rfl
  | operand o =>
    cases o with
    | constant v => rfl
    | label name => rfl
    | dataType t => rfl
    | var f name =>
      simp only [lookup, read_variable_run]
      cases frameOf m f.kind >>= valueIn f name <;> rfl

theorem lookup_variable (f : FrameRef) (name : String) (m : Machine) :
    lookup m (.operand (.var f name)) = frameOf m f.kind >>= valueIn f name := by
  simp only [lookup, read_variable_run]
  cases frameOf m f.kind >>= valueIn f name <;> rfl

/-- Two machines with the same variables. -/
def SameFrames (m m' : Machine) : Prop :=
  m'.temp = m.temp ∧ m'.locals = m.locals ∧ m'.globals = m.globals

theorem SameFrames.frameOf (same : SameFrames m m') (k : FrameKind) :
    frameOf m' k = frameOf m k := by
  obtain ⟨temp, locals, globals⟩ := same
  cases k with
  | temporary => exact congrArg Except.ok temp
  | globals => exact congrArg (Except.ok ∘ some) globals
  | locals => rw [Machine.frameOf, locals, Machine.frameOf]

theorem SameFrames.lookup (same : SameFrames m m') (s : Source) : lookup m' s = lookup m s := by
  cases s with
  | value v => rfl
  | operand o =>
    cases o with
    | constant v => rfl
    | label name => rfl
    | dataType t => rfl
    | var f name => rw [lookup_variable, lookup_variable, same.frameOf]

theorem SameFrames.trans {m'' : Machine} (first : SameFrames m m') (second : SameFrames m' m'') :
    SameFrames m m'' :=
  ⟨second.1.trans first.1, second.2.1.trans first.2.1, second.2.2.trans first.2.2⟩

theorem SameFrames.stored (same : SameFrames m m') (kind : FrameKind) (name : String) (v : Value) :
    SameFrames (storeIn kind name v m) (storeIn kind name v m') := by
  obtain ⟨temp, locals, globals⟩ := same
  cases kind with
  | temporary => exact ⟨congrArg (Option.map _) temp, locals, globals⟩
  | globals => exact ⟨temp, locals, congrArg (Dictionary.insert · name v) globals⟩
  | locals =>
    unfold storeIn
    rw [locals]
    cases m.locals with
    | nil => exact ⟨temp, locals, globals⟩
    | cons d rest => exact ⟨temp, rfl, globals⟩

theorem storeIn_restack (kind : FrameKind) (name : String) (v : Value) (m : Machine)
    (values : List Value) :
    { storeIn kind name v m with stack := values } = storeIn kind name v
    { m with stack := values } := by
  cases kind with
  | temporary => rfl
  | globals => rfl
  | locals =>
    obtain ⟨temp, locals⟩ := m
    cases locals <;> rfl

theorem storeIn_stack (kind : FrameKind) (name : String) (v : Value) (m : Machine) :
    (storeIn kind name v m).stack = m.stack := by
  have same := congrArg Machine.stack (storeIn_restack kind name v m m.stack)
  exact same.symm

/-- Whether a value can be assigned to a variable: its frame must be there and have the name. Only
the missing value may go to a new name. -/
def assignable (m : Machine) (f : FrameRef) (name : String) (v : Value) : Except Fault Unit :=
  match frameOf m f.kind with
  | .error e => .error e
  | .ok none => .error (.language .missingFrame)
  | .ok (some d) =>
    if !d.contains name && Source.value v != .value .none then
      .error (.language (.undeclaredVariable f.spelling name))
    else .ok ()

theorem SameFrames.assignable (same : SameFrames m m') (f : FrameRef) (name : String) (v : Value) :
    assignable m' f name v = assignable m f name v := by
  rw [Machine.assignable, same.frameOf, Machine.assignable]

theorem assign_value_run (f : FrameRef) (name : String) (v : Value) (m : Machine) :
    (assign (.operand (.var f name)) (.value v)).run m = match assignable m f name v with
      | .ok _ => .ok () ((storeIn f.kind name v m).charged variablePrice)
      | .error e => .error e m := by
  rw [assign, EStateM.run_bind, frame_run, assignable]
  cases frameOf m f.kind with
  | error e => rfl
  | ok found =>
    cases found with
    | none => rfl
    | some d =>
      dsimp only
      split
      · rfl
      · rfl

theorem push_run (s : Source) (m : Machine) :
    (push s).run m = match lookup m s with
      | .error f => .error f (m.charged (readPrice s))
      | .ok v => match v.text with
        | .error f => .error (.value f) (m.charged (readPrice s))
        | .ok _ => .ok () { m.charged (readPrice s) with
            stack := v :: m.stack
            operandPrice := m.operandPrice + readPrice s + stackPrice } := by
  rw [push, EStateM.run_bind, read_run]
  cases lookup m s with
  | error f => rfl
  | ok v =>
    dsimp only
    rw [EStateM.run_bind]
    cases v.text <;> rfl

theorem pop_run (s : Source) (m : Machine) :
    (pop s).run m = match m.stack with
      | [] => .error (.language .emptyDataStack) m
      | v :: rest => match v.text with
        | .error f => .error (.value f) m
        | .ok _ => match (if isTarget s then assign s (.value v) else pure ()).run m with
          | .error e m' => .error e m'
          | .ok _ m' =>
            .ok v { m' with stack := rest, operandPrice := m'.operandPrice + stackPrice } := by
  rw [pop, EStateM.run_bind, EStateM.run_get]
  dsimp only
  cases m.stack with
  | nil => rfl
  | cons v rest =>
    dsimp only
    rw [EStateM.run_bind]
    cases v.text with
    | error f => rfl
    | ok t =>
      simp only [ofValue, EStateM.run_pure]
      split
      · rw [EStateM.run_bind]
        cases (assign s (.value v)).run m <;> rfl
      · rfl

theorem discard_run {α : Type} (c : Exec α) (m : Machine) :
    (discard c).run m = match c.run m with
      | .ok _ m' => .ok () m'
      | .error f m' => .error f m' := by
  change (c >>= fun _ => pure ()).run m = _
  rw [EStateM.run_bind]
  cases c.run m <;> rfl

theorem popValue_run (m : Machine) :
    popValue.run m = match m.stack with
      | [] => .error (.language .emptyDataStack) m
      | v :: rest => match v.text with
        | .error f => .error (.value f) m
        | .ok _ => .ok v { m with stack := rest, operandPrice := m.operandPrice + stackPrice } :=
  pop_run (.value .none) m

theorem pop_variable_run (f : FrameRef) (name : String) (m : Machine) :
    (pop (.operand (.var f name))).run m = match m.stack with
      | [] => .error (.language .emptyDataStack) m
      | v :: rest => match v.text with
        | .error e => .error (.value e) m
        | .ok _ => match assignable m f name v with
          | .error e => .error e m
          | .ok _ => .ok v { storeIn f.kind name v m with
              stack := rest
              operandPrice :=
  (storeIn f.kind name v m).operandPrice + variablePrice + stackPrice } := by
  rw [pop_run]
  cases m.stack with
  | nil => rfl
  | cons v rest =>
    dsimp only
    cases v.text with
    | error e => rfl
    | ok t =>
      simp only [isTarget, ↓reduceIte, assign_value_run]
      cases assignable m f name v <;> rfl

end TacBench.Machine
