import TacBench.Code.Program
import TacBench.Machine.Command

/-! Running a program: one step at a time, to the end, or with a record of the states. The counter
moves to the next instruction unless the command has moved it. Runs take fuel, one unit a step;
running out of it is an outcome of its own. -/
namespace TacBench

namespace Program

/-- A fresh machine for the program. -/
def start (p : Program) (input : String) (interruptOn : Option Text) : Machine :=
  { labels := p.labels, line := p.firstLine, input := input.toList, interruptOn }

def fetch? (p : Program) (m : Machine) : Option Instruction :=
  if m.pc < 0 then none else p.instructions[m.pc.toNat]?

end Program

namespace Machine

inductive Step where
  | ended
  | next (m : Machine)
  | interrupted (m : Machine)
  | failed (f : Failure) (m : Machine)

def advance (before after : Machine) : Machine :=
  if after.pc = before.pc then { after with pc := after.pc + 1 } else after

def step (p : Program) (m : Machine) : Step :=
  match p.fetch? m with
  | none => .ended
  | some i =>
    match (execute i).run m with
    | .ok _ m' => .next (advance m m')
    | .error .interrupted m' => .interrupted m'
    | .error f m' => .failed (located i f) m'

inductive Outcome where
  | finished
  | failed (f : Failure)
  | outOfFuel
  deriving DecidableEq, Repr

/-- Runs to the end; an interrupt ends the run as if the program were over. -/
def run (p : Program) : Nat → Machine → Outcome × Machine
  | 0, m => (.outOfFuel, m)
  | fuel + 1, m =>
    match step p m with
    | .ended => (.finished, m)
    | .next m' => run p fuel m'
    | .interrupted m' => (.finished, m')
    | .failed f m' => (.failed f, m')

inductive TraceEnd where
  | finished
  | limit
  | failed (f : Failure)
  deriving DecidableEq, Repr

/-- The states before each instruction, at most as many as asked for, how the record ends and the
state at its end. -/
def trace (p : Program) : Nat → Machine → List Machine × TraceEnd × Machine
  | 0, m => ([], .limit, m)
  | n + 1, m =>
    match step p m with
    | .ended => ([], .finished, m)
    | s =>
      if n = 0 then ([m], .limit, m)
      else match s with
        | .next m' =>
          let (ms, e, last) := trace p n m'
          (m :: ms, e, last)
        | .interrupted m' => ([m], .finished, m')
        | .failed f m' => ([m], .failed f, m')
        | .ended => ([], .finished, m)

end Machine
end TacBench
