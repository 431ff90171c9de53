import TacBench.Code.Error
import TacBench.Code.Opcode
import TacBench.Code.Operand

/-! One line of code: a command in any letter case and its operands, separated by blanks. -/
namespace TacBench

structure Instruction where
  opcode : Opcode
  operands : List Operand
  /-- The number of the source line. -/
  index : Int
  /-- The line as it stands in the code. -/
  source : String
  deriving DecidableEq, Repr, Inhabited

namespace Instruction

open Code

/-- Reads operands from the last to the first, so that the last bad one is reported. -/
def parseOperands : List String → Except Operand.Fault (List Operand)
  | [] => .ok []
  | w :: ws => do
    let rest ← parseOperands ws
    let o ← Operand.parse w
    return o :: rest

def parse (line : String) (index : Int) : Except LoadFault Instruction :=
  match Text.fields line.toList with
  | [] => .error .noWords
  | command :: words =>
    match Opcode.ofName? (String.ofList (Text.upper command)) with
    | none => .error (.rejected { cause := .unknownInstruction, place := .text line })
    | some opcode =>
      if opcode.arity ≠ words.length then
        .error (.rejected ⟨.operandCount, .number index, some line⟩)
      else match parseOperands (words.map String.ofList) with
        | .ok operands => .ok ⟨opcode, operands, index, line⟩
        | .error .invalid => .error (.rejected ⟨.invalidOperand, .number index, some line⟩)
        | .error .unknownKeyword => .error .unknownKeyword
        | .error .hexadecimalRange => .error .hexadecimalRange

/-- The instruction with another command, given by its exact name. -/
def renamed (i : Instruction) (name : String) : Except Code.Error Instruction :=
  match Opcode.ofName? name with
  | some opcode => .ok { i with opcode }
  | none => .error { cause := .unknownInstruction }

end Instruction
end TacBench
