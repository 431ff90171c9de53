/-! Errors in the code itself: which line cannot be accepted, and why. -/
namespace TacBench.Code

/-- Where an error is reported: nowhere, on a numbered line, or on a line shown by its text. -/
inductive Place where
  | unknown
  | number (n : Int)
  | text (s : String)
  deriving DecidableEq, Repr, Inhabited

def Place.shown : Place → String
  | .unknown => "None"
  | .number n => toString n
  | .text s => s

inductive Cause where
  | unknownInstruction
  | invalidOperand
  | operandCount
  | missingHeader
  | invalidLine
  deriving DecidableEq, Repr

structure Error where
  cause : Cause
  place : Place := .unknown
  line : Option String := none
  deriving DecidableEq, Repr

def shownLine (line : Option String) : String := line.getD "None"

def Error.message (e : Error) : String :=
  let place := e.place.shown
  let line := shownLine e.line
  match e.cause with
  | .unknownInstruction => s!"Unknown instruction on line {place}: {line}."
  | .invalidOperand => s!"Invalid operand on line {place}: {line}."
  | .operandCount => s!"Invalid count of operands on line {place}: {line}."
  | .missingHeader => s!"Missing .IFJcode17 header on line {place}."
  | .invalidLine => s!"Invalid line {place}: {line}."

/-- Why code does not load. Besides errors in the code there are operands that look like constants
and break the reader of constants. -/
inductive LoadFault where
  | rejected (e : Error)
  | unknownKeyword
  | hexadecimalRange
  | noWords
  deriving DecidableEq, Repr

def LoadFault.message : LoadFault → String
  | .rejected e => e.message
  | .unknownKeyword => "'NoneType' object is not callable"
  | .hexadecimalRange => "hexadecimal value too large to represent as a float"
  | .noWords => ""

end TacBench.Code
