/-! The commands of the language with their names, operand counts and prices. Commands that exist
both on operands and on the data stack share one operation. -/
namespace TacBench

/-- Operations on two values. -/
inductive Binary where
  | add | sub | mul | div | lt | gt | eq | and | or | codeAt
  deriving DecidableEq, Repr, Inhabited

/-- Operations on one value. -/
inductive Unary where
  | not | toFloat | toInt | roundEven | roundOdd | toChar
  deriving DecidableEq, Repr, Inhabited

inductive Opcode where
  | move | createFrame | pushFrame | popFrame | defVar
  | jump | call | ret | label
  | jumpIf (equal : Bool)
  | jumpIfStack (equal : Bool)
  | write | read
  | push | pop | clear
  | binary (op : Binary)
  | binaryStack (op : Binary)
  | unary (op : Unary)
  | unaryStack (op : Unary)
  | type | concat | length | getChar | setChar
  | «break» | dprint | groot
  deriving DecidableEq, Repr, Inhabited

def Binary.name : Binary → String
  | .add => "ADD"
  | .sub => "SUB"
  | .mul => "MUL"
  | .div => "DIV"
  | .lt => "LT"
  | .gt => "GT"
  | .eq => "EQ"
  | .and => "AND"
  | .or => "OR"
  | .codeAt => "STRI2INT"

def Unary.name : Unary → String
  | .not => "NOT"
  | .toFloat => "INT2FLOAT"
  | .toInt => "FLOAT2INT"
  | .roundEven => "FLOAT2R2EINT"
  | .roundOdd => "FLOAT2R2OINT"
  | .toChar => "INT2CHAR"

namespace Opcode

def name : Opcode → String
  | .move => "MOVE"
  | .createFrame => "CREATEFRAME"
  | .pushFrame => "PUSHFRAME"
  | .popFrame => "POPFRAME"
  | .defVar => "DEFVAR"
  | .jump => "JUMP"
  | .call => "CALL"
  | .ret => "RETURN"
  | .label => "LABEL"
  | .jumpIf true => "JUMPIFEQ"
  | .jumpIf false => "JUMPIFNEQ"
  | .jumpIfStack true => "JUMPIFEQS"
  | .jumpIfStack false => "JUMPIFNEQS"
  | .write => "WRITE"
  | .read => "READ"
  | .push => "PUSHS"
  | .pop => "POPS"
  | .clear => "CLEARS"
  | .binary op => op.name
  | .binaryStack op => op.name ++ "S"
  | .unary op => op.name
  | .unaryStack op => op.name ++ "S"
  | .type => "TYPE"
  | .concat => "CONCAT"
  | .length => "STRLEN"
  | .getChar => "GETCHAR"
  | .setChar => "SETCHAR"
  | .break => "BREAK"
  | .dprint => "DPRINT"
  | .groot => "GROOT"

def binaries : List Binary := [.add, .sub, .mul, .div, .lt, .gt, .eq, .and, .or, .codeAt]

def unaries : List Unary := [.not, .toFloat, .toInt, .roundEven, .roundOdd, .toChar]

def all : List Opcode :=
  [.move, .createFrame, .pushFrame, .popFrame, .defVar, .jump, .call, .ret, .label,
    .jumpIf true, .jumpIf false, .jumpIfStack true, .jumpIfStack false, .write, .read,
    .push, .pop, .clear, .type, .concat, .length, .getChar, .setChar, .break, .dprint, .groot] ++
  binaries.map .binary ++ binaries.map .binaryStack ++ unaries.map .unary ++ unaries.map .unaryStack

theorem mem_all (o : Opcode) : o ∈ all := by
  cases o <;> (try rename_i x; cases x) <;> decide

def ofName? (s : String) : Option Opcode := all.find? fun o => o.name = s

/-- The number of operands. -/
def arity : Opcode → Nat
  | .createFrame | .pushFrame | .popFrame | .ret | .clear | .binaryStack _ | .unaryStack _
  | .break | .groot => 0
  | .defVar | .jump | .call | .label | .jumpIfStack _ | .write | .push | .pop | .dprint => 1
  | .move | .read | .unary _ | .type | .length => 2
  | .jumpIf _ | .binary _ | .concat | .getChar | .setChar => 3

/-- The price of one execution, operands apart. -/
def price : Opcode → Nat
  | .label | .break | .dprint | .groot => 0
  | .move | .defVar | .push | .pop | .jumpIfStack _ => 1
  | .binaryStack .codeAt => 1
  | .unaryStack .not => 3
  | .unaryStack _ => 1
  | .pushFrame | .popFrame | .createFrame | .clear | .jump | .jumpIf _ | .type => 2
  | .binary .codeAt => 2
  | .unary .not => 4
  | .unary _ => 2
  | .binaryStack _ => 3
  | .binary _ | .read | .write | .concat | .length | .getChar | .setChar => 4
  | .call | .ret => 5

/-- All names in the order of their characters. -/
def sortedNames : List String := (all.map name).mergeSort fun a b => !(b < a)

end Opcode
end TacBench
