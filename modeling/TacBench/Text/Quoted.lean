import TacBench.Text
import TacBench.Text.Digit
import TacBench.Text.Printable

/-! Quoted form of a text in messages: single quotes, unless the text has a single quote and no
double one; code points that do not print are written by their code. -/
namespace TacBench.Text

/-- The escape of a code point by its code. -/
def codeEscape (n : Nat) : List Char :=
  if n < 0x100 then '\\' :: 'x' :: hexPadded 2 n
  else if n < 0x10000 then '\\' :: 'u' :: hexPadded 4 n
  else '\\' :: 'U' :: hexPadded 8 n

def quotedChar (quote c : Char) : List Char :=
  if c = quote ∨ c = '\\' then ['\\', c]
  else if c = '\n' then ['\\', 'n']
  else if c = '\r' then ['\\', 'r']
  else if c = '\t' then ['\\', 't']
  else if isPrintable c then [c]
  else codeEscape c.toNat

def quotedPoint (quote : Char) : CodePoint → List Char
  | .char c => quotedChar quote c
  | .half h => codeEscape (CodePoint.half h).toNat

def quoted (s : Text) : String :=
  let quote := if s.contains (.char '\'') && !s.contains (.char '"') then '"' else '\''
  String.ofList (quote :: s.flatMap (quotedPoint quote) ++ [quote])

end TacBench.Text
