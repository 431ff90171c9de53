import TacBench.Code.Instruction
import TacBench.Dictionary
import TacBench.Text.Lines

/-! A program is loaded line by line. A comment begins at the first `#`; lines on which nothing else
is left do not count. The first line that counts is the header, every other one an instruction. -/
namespace TacBench

structure Program where
  instructions : Array Instruction
  deriving DecidableEq, Repr, Inhabited

namespace Program

open Code Text

def header : String := ".IFJcode17"

/-- What remains of a line without its comment and the blanks around it. -/
def significant (line : List Char) : List Char :=
  strip ((strip line).takeWhile (· != '#'))

/-- Loads numbered lines; the flag says whether the header has been read. -/
def loadLines : Bool → List (List Char × Nat) → Except LoadFault (List Instruction)
  | _, [] => .ok []
  | started, (raw, n) :: rest =>
    let line := String.ofList (significant raw)
    if line.isEmpty then loadLines started rest
    else if started then do
      let i ← Instruction.parse line n
      let is ← loadLines true rest
      return i :: is
    else if line = header then loadLines true rest
    else .error (.rejected ⟨.missingHeader, .number n, some line⟩)

def load (code : String) : Except LoadFault Program :=
  let cs := code.toList
  if cs.all isBlank then .error (.rejected { cause := .invalidLine })
  else (loadLines false ((lines cs).zipIdx 1)).map fun is => ⟨is.toArray⟩

/-- The label that an operand names; operands that are no label have none. -/
def labelOf : Operand → Option String
  | .label l => some l
  | _ => none

/-- Label instructions by label; the last one with a label wins. An operand that is no label is
entered without a name. -/
def labels (p : Program) : Dictionary (Option String) Int :=
  p.instructions.toList.zipIdx.foldl (fun d (i, n) =>
    match i.opcode, i.operands with
    | .label, o :: _ => d.insert (labelOf o) n
    | _, _ => d) []

/-- The source line of the first instruction. -/
def firstLine (p : Program) : Int :=
  match p.instructions[0]? with
  | some i => i.index
  | none => -1

/-- The source line of an instruction; a negative position counts from the end. -/
def lineAt? (p : Program) (position : Int) : Option Int :=
  let n := if position < 0 then position + p.instructions.size else position
  if n < 0 then none else (p.instructions[n.toNat]?).map (·.index)

end Program
end TacBench
