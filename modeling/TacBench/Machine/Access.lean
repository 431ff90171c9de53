import TacBench.Machine.State

/-! Access to variables, labels and the data stack. An access is paid for before it is known to
succeed; what it has changed stays changed if it fails. -/
namespace TacBench.Machine

/-- A computation that changes the machine and may stop with a fault. -/
abbrev Exec := EStateM Fault Machine

/-- What an access works on: an operand of the code or a value at hand. -/
inductive Source where
  | operand (o : Operand)
  | value (v : Value)
  deriving DecidableEq, Repr, Inhabited

def fail {α : Type} (e : Error) : Exec α := throw (.language e)

def ofValue {α : Type} (r : Except Value.Fault α) : Exec α :=
  match r with
  | .ok a => pure a
  | .error f => throw (.value f)

/-- Prices of operands. -/
def constantPrice : Nat := 1

def stackPrice : Nat := 2

def variablePrice : Nat := 4

def charge (n : Nat) : Exec Unit := modify fun m => { m with operandPrice := m.operandPrice + n }

/-- The frame of a kind. Only the temporary frame can be missing without a complaint. -/
def frame (k : FrameKind) : Exec (Option Frame) := do
  let m ← get
  match k with
  | .temporary => return m.temp
  | .globals => return some m.globals
  | .locals => match m.locals with
    | f :: _ => return some f
    | [] => fail .missingFrame

def storeIn (k : FrameKind) (name : String) (v : Value) (m : Machine) : Machine :=
  match k with
  | .temporary => { m with temp := m.temp.map (·.insert name v) }
  | .globals => { m with globals := m.globals.insert name v }
  | .locals => match m.locals with
    | f :: fs => { m with locals := f.insert name v :: fs }
    | [] => m

/-- The value of a source. -/
def read : Source → Exec Value
  | .value v => return v
  | .operand (.constant v) => do
    charge constantPrice
    return v
  | .operand (.var f name) => do
    charge variablePrice
    match ← frame f.kind with
    | none => throw .temporaryRead
    | some d => match d.find? name with
      | none => throw (.unknownName name)
      | some .none => fail (.undefinedVariable f.spelling name)
      | some v => return v
  | .operand _ => fail .operandType

/-- Assigns a source to a variable. The missing value may also be assigned to a name that has not
been declared, and declares it. -/
def assign (target what : Source) : Exec Unit :=
  match target with
  | .value v => throw (.operandNeeded v.kind "type")
  | .operand (.var f name) => do
    match ← frame f.kind with
    | none => fail .missingFrame
    | some d =>
      if !d.contains name && what != .value .none then
        fail (.undeclaredVariable f.spelling name)
      let v ← read what
      modify (storeIn f.kind name v)
      charge variablePrice
  | .operand _ => fail .operandType

def declare : Source → Exec Unit
  | .value v => throw (.operandNeeded v.kind "frame")
  | .operand (.var f name) => do
    match ← frame f.kind with
    | none => throw .temporaryDeclaration
    | some d =>
      if d.contains name then fail .alreadyDefined
      modify (storeIn f.kind name .none)
      charge variablePrice
  | .operand _ => throw .frameless

/-- The position of the label that a source names; a source that is no label names none. -/
def target (s : Source) : Exec Int := do
  let l ← match s with
    | .operand (.label l) => pure (some l)
    | .operand _ => pure none
    | .value v => throw (.operandNeeded v.kind "label")
  let m ← get
  match m.labels.find? l with
  | some n => return n
  | none => fail (.unknownLabel l)

def jump (s : Source) : Exec Unit := do
  let n ← target s
  modify fun m => { m with pc := n }

def call (s : Source) : Exec Unit := do
  let n ← target s
  modify fun m => { m with calls := m.pc :: m.calls, pc := n }

/-- Returns behind the newest call. -/
def returnBack : Exec Unit := do
  let m ← get
  match m.calls with
  | [] => fail .invalidReturn
  | c :: cs => set { m with pc := c + 1, calls := cs }

def jumpIf (label left right : Source) (equal : Bool) : Exec Unit := do
  let l ← read left
  let r ← read right
  if l.same r = equal then jump label

def createFrame : Exec Unit := modify fun m => { m with temp := some [] }

def pushFrame : Exec Unit := do
  let m ← get
  match m.temp with
  | none => fail .missingFrame
  | some f => set { m with temp := none, locals := f :: m.locals }

def popFrame : Exec Unit := do
  let m ← get
  match m.locals with
  | [] => fail .missingFrame
  | f :: fs => set { m with temp := some f, locals := fs }

/-- Values are shown in the log as they pass the data stack, so one without a text cannot. -/
def push (s : Source) : Exec Unit := do
  let v ← read s
  let _ ← ofValue v.text
  modify fun m => { m with stack := v :: m.stack, operandPrice := m.operandPrice + stackPrice }

/-- Whether a source given to `pop` is a place for the value. -/
def isTarget : Source → Bool
  | .operand _ => true
  | .value v => v.holds

/-- Takes the top of the data stack, after it has been assigned to the target, if there is one. -/
def pop (s : Source) : Exec Value := do
  let m ← get
  match m.stack with
  | [] => fail .emptyDataStack
  | v :: rest =>
    let _ ← ofValue v.text
    if isTarget s then assign s (.value v)
    modify fun m => { m with stack := rest, operandPrice := m.operandPrice + stackPrice }
    return v

/-- The top of the data stack alone. -/
def popValue : Exec Value := pop (.value .none)

def getChar (target text index : Source) : Exec Unit := do
  let s ← read text
  let i ← read index
  match Value.pointAt s i with
  | .ok c => assign target (.value (.str [c]))
  | .error .indexRange | .error .indexSize =>
    let shown ← read index
    fail (.badIndex s shown)
  | .error f => throw (.value f)

/-- Texts cannot be changed in place, so the command finds its operands and fails. -/
def setChar (target index source : Source) : Exec Unit := do
  let changed ← read target
  let s ← read source
  let _ ← ofValue (Value.pointAt s (.int 0))
  let _ ← read index
  throw (.value (.notAssignable changed.kind))

def textLength (target text : Source) : Exec Unit := do
  let v ← read text
  let n ← ofValue v.length
  assign target (.value n)

def emit (c : Channel) (text : Text) : Exec Unit := do
  modify fun m => { m with written := (c, text) :: m.written }
  let m ← get
  if c = .out && m.interruptOn = some text then throw .interrupted

def write (s : Source) : Exec Unit := do
  let v ← read s
  let text ← ofValue v.printed
  emit .out text

/-- The frame that a text names in any letter case. -/
def frameNamed (name : String) : Exec (Option Frame) :=
  match String.ofList (Text.upper name.toList) with
  | "TF" => frame .temporary
  | "LF" => frame .locals
  | "GF" => frame .globals
  | _ => throw .unknownFrame

end TacBench.Machine
