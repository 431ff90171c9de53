import TacBench.Number.Integer
import TacBench.Text.Quoted
import TacBench.Value

/-! What can go wrong when values are combined, converted or shown. Each cause carries what its
message names. -/
namespace TacBench.Value

/-- Ways in which a text fails as a template for one integer. -/
inductive TemplateFault where
  | argumentLeft
  | argumentMissing
  | mappingNeeded
  | incomplete
  | widthTooBig
  | widthSize
  | precisionTooBig
  | precisionSize
  | directive (c : CodePoint) (index : Nat)
  deriving DecidableEq, Repr

inductive Fault where
  | operands (symbol : String) (left right : Kind)
  | comparison (symbol : String) (left right : Kind)
  | concatenation (right : Kind)
  | repetition (count : Kind)
  | countRange
  | repetitionLength
  | repetitionSize
  | divisionByZero
  | floatDivisionByZero
  | floatRange
  | quotientRange
  | infiniteInteger
  | undefinedInteger
  | notIndexable (kind : Kind)
  | indexKind (kind : Kind)
  | indexRange
  | indexSize
  | notAssignable (kind : Kind)
  | noLength (kind : Kind)
  | joinedItem (position : Nat) (kind : Kind)
  | integerNeeded (kind : Kind)
  | characterRange
  | characterSize
  | notRoundable (kind : Kind)
  | roundingCase
  | template (f : TemplateFault)
  | integerText (f : Integer.TextFault) (text : Text)
  | floatText (text : Text)
  | integerKind (kind : Kind)
  | floatKind (kind : Kind)
  | textLimit
  deriving DecidableEq, Repr

def TemplateFault.message : TemplateFault → String
  | .argumentLeft => "not all arguments converted during string formatting"
  | .argumentMissing => "not enough arguments for format string"
  | .mappingNeeded => "format requires a mapping"
  | .incomplete => "incomplete format"
  | .widthTooBig => "width too big"
  | .widthSize => ""
  | .precisionTooBig => "precision too big"
  | .precisionSize => "precision too large"
  | .directive c i =>
    let shown := if 31 ≤ c.toNat ∧ c.toNat < 127 then c.seen else '?'
    let code := String.ofList (Nat.toDigits 16 c.toNat)
    s!"unsupported format character '{shown}' (0x{code}) at index {i}"

/-- A quoted text of which at most 200 characters are shown. -/
def shortQuoted (s : Text) : String := String.ofList ((Text.quoted s).toList.take 200)

def integerTextMessage (text : Text) : Integer.TextFault → String
  | .malformed =>
    let shown := shortQuoted text
    s!"invalid literal for int() with base 10: {shown}"
  | .tooLong n =>
    s!"Exceeds the limit (4300 digits) for integer string conversion: value has {n} digits; " ++
      "use sys.set_int_max_str_digits() to increase the limit"

def Fault.message : Fault → String
  | .operands s l r =>
    let l := l.name
    let r := r.name
    s!"unsupported operand type(s) for {s}: '{l}' and '{r}'"
  | .comparison s l r =>
    let l := l.name
    let r := r.name
    s!"'{s}' not supported between instances of '{l}' and '{r}'"
  | .concatenation k =>
    let k := k.name
    s!"can only concatenate str (not \"{k}\") to str"
  | .repetition k =>
    let k := k.name
    s!"can't multiply sequence by non-int of type '{k}'"
  | .countRange => "cannot fit 'int' into an index-sized integer"
  | .repetitionLength => "repeated string is too long"
  | .repetitionSize => ""
  | .divisionByZero => "division by zero"
  | .floatDivisionByZero => "float division by zero"
  | .floatRange => "int too large to convert to float"
  | .quotientRange => "integer division result too large for a float"
  | .infiniteInteger => "cannot convert float infinity to integer"
  | .undefinedInteger => "cannot convert float NaN to integer"
  | .notIndexable k =>
    let k := k.name
    s!"'{k}' object is not subscriptable"
  | .indexKind k =>
    let k := k.name
    s!"string indices must be integers, not '{k}'"
  | .indexRange => "string index out of range"
  | .indexSize => "cannot fit 'int' into an index-sized integer"
  | .notAssignable k =>
    let k := k.name
    s!"'{k}' object does not support item assignment"
  | .noLength k =>
    let k := k.name
    s!"object of type '{k}' has no len()"
  | .joinedItem i k =>
    let k := k.name
    s!"sequence item {i}: expected str instance, {k} found"
  | .integerNeeded k =>
    let k := k.name
    s!"'{k}' object cannot be interpreted as an integer"
  | .characterRange => "chr() arg not in range(0x110000)"
  | .characterSize => "Python int too large to convert to C int"
  | .notRoundable k =>
    let k := k.name
    s!"type {k} doesn't define __round__ method"
  | .roundingCase => "tuple index out of range"
  | .template f => f.message
  | .integerText f text => integerTextMessage text f
  | .floatText text =>
    let shown := Text.quoted text
    s!"could not convert string to float: {shown}"
  | .integerKind k =>
    let k := k.name
    s!"int() argument must be a string, a bytes-like object or a real number, not '{k}'"
  | .floatKind k =>
    let k := k.name
    s!"float() argument must be a string or a real number, not '{k}'"
  | .textLimit =>
    "Exceeds the limit (4300 digits) for integer string conversion; " ++
      "use sys.set_int_max_str_digits() to increase the limit"

end TacBench.Value
