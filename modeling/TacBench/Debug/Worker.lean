import TacBench.Debug.Session

/-! The worker of a session: it carries out a command and signals what has come of it. An error of
the language is signalled with its message; every other fault escapes from the worker. -/
namespace TacBench.Debug

inductive Signal where
  /-- The line of the instruction that comes next, or -1. -/
  | line (n : Int)
  | ended
  | error (text : Text)
  /-- The walk pauses with this machine. -/
  | paused (m : Machine)
  deriving DecidableEq, Repr

namespace Worker

inductive Fault where
  | session (f : Debug.Fault)
  /-- A message with a value that has no text. -/
  | value (f : Value.Fault)
  /-- The program loaded last has no instruction at the position of the machine. -/
  | position
  deriving DecidableEq, Repr

/-- A fault that escapes if there is one, the signals in order, and the session after a command. -/
abbrev Outcome := Option Fault × List Signal × Session

/-- The message of a fault that is signalled, if the message can be made. -/
def shownMessage? : Debug.Fault → Option (Except Value.Fault Text)
  | .load (.rejected e) => some (.ok e.message)
  | .program f =>
    match f.fault with
    | .language _ => some f.message
    | _ => none
  | _ => none

/-- What a command of a session comes to: its result, a message, or a fault that escapes. -/
def guarded {α : Type} (r : Except Debug.Fault α) : Except Fault (α ⊕ Text) :=
  match r with
  | .ok a => .ok (.inl a)
  | .error f =>
    match shownMessage? f with
    | some (.ok text) => .ok (.inr text)
    | some (.error v) => .error (.value v)
    | none => .error (.session f)

/-- The line at which a machine pauses, or -1 if no program has been loaded. -/
def currentLine (m : Machine) (s : Session) : Except Fault Int :=
  match s.program with
  | none => .ok (-1)
  | some p =>
    match p.lineAt? m.pc with
    | none => .error .position
    | some line => .ok line

/-- Signals what a debugging command has come to, after the line. -/
def settle (r : Except Debug.Fault (Option Machine) × Session) : Outcome :=
  match guarded r.1 with
  | .error f => (some f, [], r.2)
  | .ok (.inr text) => (none, [.line (-1), .error text], r.2)
  | .ok (.inl none) => (none, [.line (-1), .ended], r.2)
  | .ok (.inl (some m)) =>
    match currentLine m r.2 with
    | .error f => (some f, [], r.2)
    | .ok line => (none, [.line line, .paused m], r.2)

def debug (fuel : Nat) (code : String) (s : Session) : Outcome :=
  settle (s.debug fuel code s.breakpoints)

def nextLine (s : Session) : Outcome := settle s.nextLine

def nextBreakpoint (fuel : Nat) (s : Session) : Outcome := settle (s.nextBreakpoint fuel)

def run (fuel : Nat) (code : String) (s : Session) : Outcome :=
  let (r, s) := s.run fuel code
  match guarded r with
  | .error f => (some f, [], s)
  | .ok (.inr text) => (none, [.error text], s)
  | .ok (.inl _) => (none, [.ended], s)

end Worker
end TacBench.Debug
