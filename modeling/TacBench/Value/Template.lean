import TacBench.Value.Operation

/-! A text where a number to be rounded is expected is taken as a template that one integer fills.
No template can then be divided, so the outcome is always a fault; this module finds which one. -/
namespace TacBench.Value

open Text

def isTemplateFlag (c : Char) : Bool := c ∈ ['-', '+', ' ', '#', '0']

/-- Conversions that write an integer by its digits. -/
def isIntegerConversion (c : Char) : Bool := c ∈ ['i', 'd', 'u', 'o', 'x', 'X']

def isConversion (c : Char) : Bool :=
  isIntegerConversion c || c ∈ ['s', 'r', 'a', 'e', 'E', 'f', 'F', 'g', 'G', 'c']

/-- A width or precision in a template. -/
structure TemplateNumber where
  /-- Nothing if it is missing or the integer stands for it. -/
  value : Nat := 0
  /-- Whether the integer is used up. -/
  used : Bool
  rest : Text

/-- Reads a width or precision: a star takes the integer, digits are bounded. -/
def templateNumber (bound : Nat) (tooBig : TemplateFault) (used : Bool) (s : Text) :
    Except TemplateFault TemplateNumber :=
  if s.head? = some (.char '*') then
    if used then .error .argumentMissing else .ok { used := true, rest := s.drop 1 }
  else
    let digits := s.takeWhile (isAsciiDigit ·.seen)
    let value := numeral 10 (digits.map fun c => c.toNat - 48)
    if bound < value then .error tooBig else .ok { value, used, rest := s.drop digits.length }

/-- The largest precision with which the digits of an integer are written. -/
def precisionBound : Nat := Nat.pow 2 31 - 4

/-- Writes the integer with a conversion, width and precision, as far as there is memory. -/
def convert (longest : Nat) (c : Char) (width precision : Nat) : Except TemplateFault Unit :=
  if isIntegerConversion c && precisionBound < precision then .error .precisionSize
  else if longest < width then .error .widthSize
  else .ok ()

/-- What follows a percent sign in a template of the given length; a second percent sign directly
behind the first stands for itself. -/
def templateDirective (longest length : Nat) (used : Bool) (s : Text) :
    Except TemplateFault (Bool × Text) := do
  if s.head? = some (.char '%') then return (used, s.drop 1)
  if s.head? = some (.char '(') then throw .mappingNeeded
  let width ← templateNumber (Nat.pow 2 63 - 1) .widthTooBig used
    (s.dropWhile (isTemplateFlag ·.seen))
  let precision ←
    if width.rest.head? = some (.char '.') then
      templateNumber (Nat.pow 2 31 - 1) .precisionTooBig width.used (width.rest.drop 1)
    else pure { used := width.used, rest := width.rest }
  let r := match precision.rest with
    | .char 'h' :: r | .char 'l' :: r | .char 'L' :: r => r
    | r => r
  match r with
  | [] => throw .incomplete
  | c :: r =>
    if precision.used then throw .argumentMissing
    if !isConversion c.seen then throw (.directive c (length - r.length - 1))
    convert longest c.seen width.value precision.value
    return (true, r)

/-- The fault of filling a template; the fuel is the length of the template. -/
def fillTemplate (longest length : Nat) : Nat → Bool → Text → Fault
  | 0, used, _ | _, used, [] =>
    if used then .operands "//" .str .float else .template .argumentLeft
  | fuel + 1, used, .char '%' :: r =>
    match templateDirective longest length used r with
    | .error f => .template f
    | .ok (used, r) => fillTemplate longest length fuel used r
  | fuel + 1, used, _ :: r => fillTemplate longest length fuel used r

def templateFault (longest : Nat) (s : Text) : Fault :=
  fillTemplate longest s.length s.length false s

end TacBench.Value
