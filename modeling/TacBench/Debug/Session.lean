import TacBench.Machine.Run

/-! A debugging session: programs are run, or walked from pause to pause. All programs of a session
share one input and one output. A walk outlives the start of another program, so the session knows
whether its walk belongs to the program loaded last. -/
namespace TacBench.Debug

inductive Stage where
  | fresh
  | paused
  | over
  deriving DecidableEq, Repr

/-- A program that is walked through. -/
structure Walk where
  program : Program
  machine : Machine
  stage : Stage
  /-- Whether it is the program loaded last. -/
  latest : Bool
  /-- Cleared by a stop: the walk ends before its next instruction. -/
  enabled : Bool
  deriving DecidableEq, Repr

structure Session where
  breakpoints : List Int := []
  /-- The program loaded last. -/
  program : Option Program := none
  walk : Option Walk := none
  /-- Open, closed, or closed by a step that found the end. -/
  active : Option Bool := some false
  input : List Char := []
  /-- Everything written, newest first. -/
  written : List (Channel × Text) := []
  /-- A write of exactly this text to the output stops the session. -/
  stopOn : Option Text := none
  deriving DecidableEq, Repr

inductive Fault where
  | load (f : Code.LoadFault)
  | program (f : Machine.Failure)
  /-- There is nothing to step. -/
  | inactive
  /-- The session is open and no program is being walked. -/
  | noWalk
  /-- The program loaded last has no instruction at the position of the walk. -/
  | position
  | unknownBreakpoint
  | outOfFuel
  deriving DecidableEq, Repr

namespace Session

def addBreakpoint (line : Int) (s : Session) : Session :=
  if line ∈ s.breakpoints then s else { s with breakpoints := s.breakpoints ++ [line] }

def removeBreakpoint (line : Int) (s : Session) : Except Fault Session :=
  if line ∈ s.breakpoints then .ok { s with breakpoints := s.breakpoints.filter (· ≠ line) }
  else .error .unknownBreakpoint

def setBreakpoints (lines : List Int) (s : Session) : Session :=
  { s with breakpoints := lines.eraseDups }

def stop (s : Session) : Session := { s with active := some false, walk := none }

/-- Whether a step from one machine to another made the write that stops the session. -/
def stopsAt (s : Session) (before after : Machine) : Bool :=
  match s.stopOn, after.written with
  | some t, (.out, w) :: rest => w = t && rest.length == before.written.length
  | _, _ => false

/-- The machine of a walk on the session's input and output. -/
def attach (s : Session) (m : Machine) : Machine :=
  { m with input := s.input, written := s.written }

def detach (s : Session) (m : Machine) : Session :=
  { s with input := m.input, written := m.written }

/-- How far a walk gets when it is resumed. -/
inductive Resumed where
  | paused
  | over
  | failed (f : Machine.Failure)

/-- Pauses before the next instruction, or ends. -/
def Walk.settle (w : Walk) (m : Machine) : Resumed × Walk :=
  if w.enabled && (w.program.fetch? m).isSome
    then (.paused, { w with machine := m, stage := .paused })
  else (.over, { w with machine := m, stage := .over })

/-- Carries out the instruction at which a walk pauses, if it does, and goes on to the next pause. A
stop in the middle closes the session and disables the walk of the program loaded last. -/
def resume (w : Walk) (s : Session) : Resumed × Walk × Session :=
  match w.stage with
  | .over => (.over, w, s)
  | .fresh =>
    let (r, w) := Walk.settle w (s.attach w.machine)
    (r, w, s)
  | .paused =>
    let before := s.attach w.machine
    match Machine.step w.program before with
    | .ended => (.over, { w with stage := .over }, s)
    | .interrupted m => (.over, { w with machine := m, stage := .over }, s.detach m)
    | .failed f m => (.failed f, { w with machine := m, stage := .over }, s.detach m)
    | .next m =>
      let s' := s.detach m
      let stopped := s.stopsAt before m
      let s' := if stopped then s'.stop else s'
      let w := if stopped && w.latest then { w with enabled := false } else w
      let (r, w) := Walk.settle w m
      (r, w, s')

/-- Puts a walk back, unless the session has let go of it. -/
def keep (w : Walk) (s : Session) : Session :=
  { s with walk := s.walk.map fun _ => w }

/-- Walks to the next pause on a line with a breakpoint. -/
def walkToBreakpoint : Nat → Walk → Session → Except Fault (Option Machine) × Session
  | 0, w, s => (.error .outOfFuel, s.keep w)
  | fuel + 1, w, s =>
    match resume w s with
    | (.over, w, s) => (.ok none, { s.keep w with active := some false })
    | (.failed f, w, s) => (.error (.program f), s.keep w)
    | (.paused, w, s) =>
      if s.active ≠ some true then (.ok none, s.keep w)
      else match s.program.bind (·.lineAt? w.machine.pc) with
        | none => (.error .position, s.keep w)
        | some line =>
          if line ∈ s.breakpoints then (.ok (some w.machine), s.keep w)
          else walkToBreakpoint fuel w s

def nextBreakpoint (fuel : Nat) (s : Session) : Except Fault (Option Machine) × Session :=
  if s.active ≠ some true then (.error .inactive, s)
  else match s.walk with
    | none => (.error .noWalk, s)
    | some w => walkToBreakpoint fuel w s

/-- One instruction further. -/
def nextLine (s : Session) : Except Fault (Option Machine) × Session :=
  if s.active ≠ some true then (.error .inactive, s)
  else match s.walk with
    | none => (.error .noWalk, s)
    | some w =>
      match resume w s with
      | (.over, w, s) => (.ok none, { s.keep w with active := none })
      | (.failed f, w, s) => (.error (.program f), s.keep w)
      | (.paused, w, s) => (.ok (some w.machine), s.keep w)

/-- Makes a program the one loaded last. -/
def withProgram (p : Program) (s : Session) : Session :=
  { s with program := some p, active := some true, walk := s.walk.map ({ · with latest := false }) }

/-- Starts to walk through a program, up to the first breakpoint. -/
def debug (fuel : Nat) (code : String) (breakpoints : List Int) (s : Session) :
    Except Fault (Option Machine) × Session :=
  match Program.load code with
  | .error f => (.error (.load f), s)
  | .ok p =>
    let w : Walk := ⟨p, p.start "" none, .fresh, true, true⟩
    nextBreakpoint fuel { (s.withProgram p).setBreakpoints breakpoints with walk := some w }

/-- Runs a program until its end or a stop. -/
def runLoop (p : Program) : Nat → Machine → Session → Except Fault Machine × Session
  | 0, m, s => (.error .outOfFuel, s.detach m)
  | fuel + 1, m, s =>
    match Machine.step p m with
    | .ended => (.ok m, s.detach m)
    | .interrupted m' => (.ok m', s.detach m')
    | .failed f m' => (.error (.program f), s.detach m')
    | .next m' =>
      if s.stopsAt m m' then (.ok m', (s.detach m').stop)
      else runLoop p fuel m' s

def run (fuel : Nat) (code : String) (s : Session) : Except Fault (Option Machine) × Session :=
  match Program.load code with
  | .error f => (.error (.load f), s)
  | .ok p =>
    let s := s.withProgram p
    let (r, s) := runLoop p fuel (s.attach (p.start "" none)) s
    (r.map some, s)

end Session
end TacBench.Debug
