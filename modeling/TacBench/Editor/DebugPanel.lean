import TacBench.Debug.Worker
import TacBench.Editor.Breakpoints
import TacBench.Editor.Outline

/-! The debugging panel of the editor: it passes commands on to the worker of a session and answers
the worker's signals. It shows the line, the variables and the calls of the machine at which the
session pauses. -/
namespace TacBench.Editor

/-- A call that has not returned, or the instruction that comes next. -/
structure CallRow where
  line : Int
  label : String
  deriving DecidableEq, Repr

inductive PanelEvent where
  | breakpoints (lines : List Int)
  | line (n : Int)
  | ended
  | error (text : Text)
  | calls (rows : List CallRow)
  deriving DecidableEq, Repr

inductive PanelFault where
  /-- A fault that escapes from the worker. -/
  | worker (f : Debug.Worker.Fault)
  /-- A value that has no text. -/
  | value (f : Value.Fault)
  /-- No program has been loaded whose calls could be shown. -/
  | noProgram
  /-- The program loaded last has no instruction at a position of the machine. -/
  | position
  /-- The instruction at the position of a call has no operand. -/
  | noOperand
  deriving DecidableEq, Repr

structure DebugPanel where
  session : Debug.Session
  outline : Outline := []
  /-- The search of the outline. -/
  find : Finder := .depthFirst
  /-- The line shown, or -1. -/
  line : Int := -1
  calls : List CallRow := []

/-- Changes of an outline up to the first value without a text. -/
abbrev Showing := EStateM Value.Fault Outline

namespace Showing

section Find

variable (find : Finder)

def value (path : List String) (name : String) (v : Value) : Showing Unit := do
  match v.text with
  | .ok text => modify (Outline.set find path name (.str text) (.str v.kind.name))
  | .error f => throw f

/-- The variables of a frame by name. -/
def frame (path : List String) (f : Frame) : Showing Unit :=
  (List.mergeSort f fun a b => !(b.1 < a.1)).forM fun (name, v) => value find path name v

/-- The variables of a frame below an item of its own. -/
def namedFrame (path : List String) (name : String) (f : Frame) : Showing Unit := do
  modify (Outline.clearBelow find path name)
  frame find (path ++ [name]) f

def indexed (i : Nat) : String := s!"[{i}]"

def frameStack : String := "Frame stack"

def dataStack : String := "Data stack"

/-- Removes the frames that are still shown at a spot behind so many. -/
def removeFrames (spot : Spot) (count : Nat) : Showing Unit := do
  let rows := ((← get).below spot.rows).length
  (List.range' count (rows - count)).forM fun i =>
    modify (Outline.remove find [frameStack] (indexed i))

/-- The frames from the innermost to the outermost. -/
def frames (fs : List Frame) : Showing Unit := do
  let spot ← modifyGet (Outline.getItem find [] frameStack)
  fs.zipIdx.forM fun (f, i) => namedFrame find [frameStack] (indexed i) f
  removeFrames find spot fs.length

def machine (m : Machine) : Showing Unit := do
  namedFrame find [] "GF" m.globals
  namedFrame find [] "TF" (m.temp.getD [])
  namedFrame find [] "LF" (m.locals.head?.getD [])
  modify (Outline.clearBelow find [] dataStack)
  m.stack.zipIdx.forM fun (v, i) => value find [dataStack] (indexed i) v
  frames find m.locals
  let total := m.instructionPrice + m.operandPrice
  let (instructions, operands) := (m.instructionPrice, m.operandPrice)
  modify (Outline.set find [] "Price" (.str s!"{total} ({instructions}+{operands})") (.str []))

end Find

end Showing

/-- The row of a position; the instruction that comes next has no label. -/
def callRow (p : Program) (pc position : Int) : Except PanelFault CallRow :=
  match p.lineAt? position with
  | none => .error .position
  | some line =>
    if position = pc then .ok ⟨line, ""⟩
    else match (p.instructions[position.toNat]?).bind (·.operands.head?) with
      | some o => .ok ⟨line, (Program.labelOf o).getD ""⟩
      | none => .error .noOperand

/-- Rows from the instruction that comes next to the oldest call. -/
def callRows (p : Program) (m : Machine) : Except PanelFault (List CallRow) := do
  let rows ← (m.calls.reverse ++ [m.pc]).mapM (callRow p m.pc)
  return rows.reverse

namespace DebugPanel

/-- A fault that escapes if there is one, what the panel has sent, and the panel after a command. -/
abbrev Response := Option PanelFault × List PanelEvent × DebugPanel

def withBreakpoints (p : DebugPanel) (bs : List Int) : Response :=
  (none, [.breakpoints bs], { p with session := { p.session with breakpoints := bs } })

def toggle (line : Int) (p : DebugPanel) : Response :=
  p.withBreakpoints (Breakpoints.toggle line p.session.breakpoints)

def linesAdded (lines : List Int) (p : DebugPanel) : Response :=
  p.withBreakpoints (Breakpoints.afterAdded lines p.session.breakpoints)

def linesRemoved (lines : List Int) (p : DebugPanel) : Response :=
  p.withBreakpoints (Breakpoints.afterRemoved lines p.session.breakpoints)

/-- Shows the variables and the calls of a machine at which the session pauses. -/
def showMachine (m : Machine) (p : DebugPanel) : Response :=
  match (Showing.machine p.find m).run p.outline with
  | .error f outline => (some (.value f), [], { p with outline })
  | .ok _ outline =>
    match p.session.program with
    | none => (some .noProgram, [], { p with outline })
    | some program =>
      match callRows program m with
      | .error f => (some f, [], { p with outline })
      | .ok calls => (none, [.calls calls], { p with outline, calls })

/-- What the panel does at a signal of the worker. -/
def answer (p : DebugPanel) : Debug.Signal → Response
  | .line line => (none, [.line line], { p with line })
  | .ended => (none, [.ended], p)
  | .error text => (none, [.error text], p)
  | .paused m => p.showMachine m

/-- Answers signals up to the first answer that fails. -/
def answerAll : List Debug.Signal → DebugPanel → Response
  | [], p => (none, [], p)
  | s :: rest, p =>
    match p.answer s with
    | (some f, sent, p) => (some f, sent, p)
    | (none, sent, p) =>
      let (f, later, p) := answerAll rest p
      (f, sent ++ later, p)

/-- Follows the worker through a command. -/
def follow (o : Debug.Worker.Outcome) (p : DebugPanel) : Response :=
  let (f, signals, session) := o
  let (failed, sent, p) := answerAll signals { p with session }
  (failed <|> f.map .worker, sent, p)

/-- What the panel makes of the end of a debugging command. -/
def settle (r : Except Debug.Fault (Option Machine) × Debug.Session) (p : DebugPanel) : Response :=
  p.follow (Debug.Worker.settle r)

def debug (fuel : Nat) (code : String) (p : DebugPanel) : Response :=
  p.follow (Debug.Worker.debug fuel code p.session)

def nextLine (p : DebugPanel) : Response := p.follow (Debug.Worker.nextLine p.session)

def nextBreakpoint (fuel : Nat) (p : DebugPanel) : Response :=
  p.follow (Debug.Worker.nextBreakpoint fuel p.session)

def run (fuel : Nat) (code : String) (p : DebugPanel) : Response :=
  p.follow (Debug.Worker.run fuel code p.session)

def stop (p : DebugPanel) : Response :=
  (none, [.calls [], .line (-1)],
    { p with session := p.session.stop, outline := [], line := -1, calls := [] })

/-- Everything written so far, to either channel. -/
def output (p : DebugPanel) : Text := p.session.written.reverse.flatMap (·.2)

end DebugPanel
end TacBench.Editor
