import TacBench.Code.Operand
import TacBench.Code.Error
import TacBench.Dictionary

/-! The machine: frames, stacks, counters, prices, the input that is left and the output so far. -/
namespace TacBench

/-- Variables in order of declaration. -/
abbrev Frame := Dictionary String Value

inductive Channel where
  | out
  | err
  deriving DecidableEq, Repr

structure Machine where
  temp : Option Frame := none
  /-- Local frames, innermost first. -/
  locals : List Frame := []
  globals : Frame := []
  /-- Positions of the calls that have not returned, newest first. -/
  calls : List Int := []
  /-- Data stack, top first. -/
  stack : List Value := []
  labels : Dictionary (Option String) Int := []
  pc : Int := 0
  executed : Nat := 0
  /-- The source line of the last instruction carried out. -/
  line : Int := 0
  instructionPrice : Nat := 0
  operandPrice : Nat := 0
  input : List Char := []
  /-- Everything written, newest first. -/
  written : List (Channel × Text) := []
  /-- A write of exactly this text to the output interrupts the run. -/
  interruptOn : Option Text := none
  /-- The longest text for which there is memory. -/
  longest : Nat := Nat.pow 2 31
  deriving DecidableEq, Repr, Inhabited

namespace Machine

/-- Errors that the language knows. -/
inductive Error where
  | unknownDataType
  | badIndex (source index : Value)
  | emptyDataStack
  | operandType
  | undefinedVariable (frame name : String)
  | undeclaredVariable (frame name : String)
  | unknownLabel (label : Option String)
  | invalidReturn
  | missingFrame
  | alreadyDefined
  | other (text : Option String)
  deriving DecidableEq, Repr

/-- Everything that stops an instruction. Only errors of the language name the line. -/
inductive Fault where
  | language (e : Error)
  | value (f : Value.Fault)
  /-- The frame has no variable of this name. -/
  | unknownName (name : String)
  /-- A variable of the temporary frame is read while there is none. -/
  | temporaryRead
  /-- A variable is declared in the temporary frame while there is none. -/
  | temporaryDeclaration
  /-- An operand without a frame is declared. -/
  | frameless
  /-- A plain value stands where an operand is needed. -/
  | operandNeeded (kind : Kind) (field : String)
  /-- No frame has this spelling. -/
  | unknownFrame
  /-- The input does not begin with a decimal. -/
  | noDecimal
  /-- The command takes another number of operands. -/
  | operandCount
  | interrupted
  deriving DecidableEq, Repr

/-- A fault with the line it is reported on, if it is. -/
structure Failure where
  fault : Fault
  place : Code.Place := .unknown
  line : Option String := none
  deriving DecidableEq, Repr

/-- What is wrong, without the line. -/
def Error.cause : Error → Except Value.Fault Text
  | .unknownDataType => .ok "Unknown data type error"
  | .badIndex s i => do
    return "Invalid index " ++ (← i.text) ++ " on string \"" ++ (← s.text) ++ "\""
  | .emptyDataStack => .ok "Empty data stack error"
  | .operandType => .ok "Invalid operand type"
  | .undefinedVariable f n => .ok ("Undefined variable " ++ f ++ "@" ++ n)
  | .undeclaredVariable f n => .ok ("Undeclared variable " ++ f ++ "@" ++ n)
  | .unknownLabel l => .ok ("Unknown label " ++ l.getD "None")
  | .invalidReturn => .ok "Invalid return error"
  | .missingFrame => .ok "Frame error"
  | .alreadyDefined => .ok "Variable already defined"
  | .other _ => .ok "Interpreter error"

/-- The message about an error. An index whose text would be too long has none. -/
def Error.message (place : Code.Place) (line : Option String) (e : Error) :
    Except Value.Fault Text := do
  let place := place.shown
  let line := Code.shownLine line
  match e with
  | .other (some t) =>
    if !t.isEmpty then return t
  | _ => pure ()
  return (← e.cause) ++ s!" on line {place}: {line}."

def Failure.message (f : Failure) : Except Value.Fault Text :=
  match f.fault with
  | .language e => e.message f.place f.line
  | .value v => .ok v.message
  | .unknownName n => .ok (Text.quoted n)
  | .temporaryRead => .ok "'NoneType' object is not subscriptable"
  | .temporaryDeclaration => .ok "argument of type 'NoneType' is not iterable"
  | .frameless => .ok "'NoneType' object has no attribute 'upper'"
  | .operandNeeded k field =>
    let k := k.name
    .ok s!"'{k}' object has no attribute '{field}'"
  | .unknownFrame => .ok "'NoneType' object is not callable"
  | .noDecimal | .operandCount | .interrupted => .ok []

def price (m : Machine) : Nat := m.operandPrice + m.instructionPrice

/-- The text written to a channel, in order. -/
def writtenTo (m : Machine) (c : Channel) : Text :=
  (m.written.reverse.filter (·.1 = c)).flatMap (·.2)

def stdout (m : Machine) : Text := m.writtenTo .out

def stderr (m : Machine) : Text := m.writtenTo .err

/-- The label whose instruction stands at a position; of several the last one entered. -/
def labelAt (m : Machine) (position : Int) : String :=
  match m.labels.reverse.find? (·.2 = position) with
  | some (some l, _) => l
  | _ => ""

end Machine
end TacBench
