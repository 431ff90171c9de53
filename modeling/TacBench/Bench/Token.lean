import TacBench.Text.Blank
import TacBench.Text.Digit
import TacBench.Text.Replace

/-! Tokens that name an author: 32 hexadecimal digits in groups. They may be written with marks
around and between them, and two of the digits say of which kind a token is. -/
namespace TacBench.Bench.Token

/-- A hexadecimal number, which may have blanks around it, a sign and a mark of its base. -/
def number? (s : List Char) : Option Nat := do
  let s := (s.map Text.asciiDigit).dropWhile Text.isNumberBlank
  let s := if s.head? = some '+' then s.drop 1 else s
  let s := match s with
    | '0' :: 'x' :: '_' :: r => r
    | '0' :: 'X' :: '_' :: r => r
    | '0' :: 'x' :: r => r
    | '0' :: 'X' :: r => r
    | r => r
  let (ds, rest) ← Text.readDigits Text.hexValue? false s
  if rest.all Text.isNumberBlank then some (Text.numeral 16 ds) else none

/-- The number without the marks of its notation, if 32 characters are left of it. -/
def bare? (text : String) : Option (List Char) :=
  let s := Text.replace "urn:".toList [] text.toList
  let s := Text.replace "uuid:".toList [] s
  let s := (Text.stripBy (fun c => c == '\x7b' || c == '\x7d') s).filter (· != '-')
  if s.length = 32 then some s else none

/-- The digits of a token made from a number: the 13th is 4, the 17th has 10 as its upper bits. -/
def digits (n : Nat) : List Char :=
  let ds := Text.hexPadded 32 n
  let variant := (Text.hexValue? ((ds[16]?).getD '0')).getD 0 % 4 + 8
  ds.take 12 ++ ['4'] ++ (ds.drop 13).take 3 ++ Nat.toDigits 16 variant ++ ds.drop 17

/-- The groups of 8, 4, 4, 4 and 12 digits. -/
def grouped (ds : List Char) : List Char :=
  ds.take 8 ++ ['-'] ++ (ds.drop 8).take 4 ++ ['-'] ++ (ds.drop 12).take 4 ++ ['-'] ++
    (ds.drop 16).take 4 ++ ['-'] ++ ds.drop 20

/-- The token that a text gives, in the usual notation. -/
def ofText? (text : String) : Option String := do
  let n ← number? (← bare? text)
  return String.ofList (grouped (digits n))

end TacBench.Bench.Token
