import TacBench.Code.Instruction
import TacBench.Machine.Input
import TacBench.Machine.Summary

/-! What each command does, and the execution of one instruction with its accounting. -/
namespace TacBench

def Binary.apply (longest : Nat) : Binary → Value → Value → Except Value.Fault Value
  | .add => Value.add
  | .sub => Value.sub
  | .mul => Value.mul longest
  | .div => Value.div
  | .lt => Value.lt
  | .gt => Value.gt
  | .eq => Value.eq
  | .and => Value.and
  | .or => Value.or
  | .codeAt => Value.codeAt

def Unary.apply (longest : Nat) : Unary → Value → Except Value.Fault Value
  | .not => Value.negation
  | .toFloat => Value.toFloatValue
  | .toInt => Value.toIntValue
  | .roundEven => Value.roundEven
  | .roundOdd => Value.roundOdd longest
  | .toChar => Value.toCharValue

namespace Machine

def binary (f : Value → Value → Except Value.Fault Value) (target left right : Source) :
    Exec Unit := do
  let l ← read left
  let r ← read right
  let v ← ofValue (f l r)
  assign target (.value v)

/-- The right operand lies on top. -/
def binaryStack (f : Value → Value → Except Value.Fault Value) : Exec Unit := do
  let r ← popValue
  let l ← popValue
  let v ← ofValue (f l r)
  push (.value v)

def unary (f : Value → Except Value.Fault Value) (target source : Source) : Exec Unit := do
  let x ← read source
  let v ← ofValue (f x)
  assign target (.value v)

def unaryStack (f : Value → Except Value.Fault Value) : Exec Unit := do
  let x ← popValue
  let v ← ofValue (f x)
  push (.value v)

/-- The source is read once to see whether it has a value and once for its kind. -/
def typeName (target source : Source) : Exec Unit := do
  let _ ← read source
  let v ← read source
  assign target (.value (.str v.kind.name))

def jumpIfStack (label : Source) (equal : Bool) : Exec Unit := do
  let l ← popValue
  let r ← popValue
  jumpIf label (.value l) (.value r) equal

def writeSummary : Exec Unit := do
  let s ← ofValue (← get).summary
  emit .err (s ++ "\n")

def writeDebug (s : Source) : Exec Unit := do
  let v ← read s
  let t ← ofValue v.text
  emit .err (t ++ "\n")

def writePrice : Exec Unit := do
  let price := (← get).priceText
  emit .err s!"Price: {price}.\n"

/-- Carries out a command that builds texts up to the longest. A loaded instruction has the right
number of operands. -/
def commandWithin (longest : Nat) (c : Opcode) (operands : List Operand) : Exec Unit :=
  match c, operands.map Source.operand with
  | .move, [a, b] => assign a b
  | .createFrame, [] => createFrame
  | .pushFrame, [] => pushFrame
  | .popFrame, [] => popFrame
  | .defVar, [a] => declare a
  | .jump, [a] => jump a
  | .call, [a] => call a
  | .ret, [] => returnBack
  | .label, [_] => pure ()
  | .jumpIf e, [a, b, c] => jumpIf a b c e
  | .jumpIfStack e, [a] => jumpIfStack a e
  | .write, [a] => write a
  | .read, [a, b] => readInput a b
  | .push, [a] => push a
  | .pop, [a] => discard (pop a)
  | .pop, [] => discard popValue
  | .clear, [] => modify fun m => { m with stack := [] }
  | .binary op, [a, b, c] => binary (op.apply longest) a b c
  | .binaryStack op, [] => binaryStack (op.apply longest)
  | .unary op, [a, b] => unary (op.apply longest) a b
  | .unaryStack op, [] => unaryStack (op.apply longest)
  | .type, [a, b] => typeName a b
  | .concat, [a, b, c] => binary Value.concat a b c
  | .length, [a, b] => textLength a b
  | .getChar, [a, b, c] => getChar a b c
  | .setChar, [a, b, c] => setChar a b c
  | .break, [] => writeSummary
  | .dprint, [a] => writeDebug a
  | .groot, [] => writePrice
  | _, _ => throw .operandCount

/-- Carries out a command with the memory that the machine has. -/
def command (c : Opcode) (operands : List Operand) : Exec Unit := do
  commandWithin (← get).longest c operands

/-- Accounts for an instruction that has been carried out. -/
def account (i : Instruction) (m : Machine) : Machine :=
  { m with
    instructionPrice := m.instructionPrice + i.opcode.price
    executed := m.executed + 1
    line := i.index }

/-- Carries out one instruction; the program counter moves only if the command moves it. -/
def execute (i : Instruction) : Exec Unit := do
  command i.opcode i.operands
  modify (account i)

/-- Reports a fault of an instruction; errors of the language name its line. -/
def located (i : Instruction) (f : Fault) : Failure :=
  match f with
  | .language _ => ⟨f, .number i.index, some i.source⟩
  | _ => { fault := f }

end Machine
end TacBench
