import TacBench.Number.Hexadecimal
import TacBench.Text.Casing
import TacBench.Value.Conversion

/-! Operands as they stand in the code: constants `type@value`, variables `frame@name`, data types
and labels. Keywords and frames are read in any letter case; one line feed at the end of the text is
passed over, except in a label, which is the whole text. -/
namespace TacBench

inductive FrameKind where
  | globals
  | locals
  | temporary
  deriving DecidableEq, Repr, Inhabited

def FrameKind.letter : FrameKind → Char
  | .globals => 'G'
  | .locals => 'L'
  | .temporary => 'T'

/-- A frame as it is spelled before the `@`. -/
structure FrameRef where
  kind : FrameKind
  firstCapital : Bool
  secondCapital : Bool
  deriving DecidableEq, Repr, Inhabited

def FrameRef.spelling (f : FrameRef) : String :=
  let first := if f.firstCapital then f.kind.letter else f.kind.letter.toLower
  String.ofList [first, if f.secondCapital then 'F' else 'f']

inductive DataType where
  | bool
  | int
  | float
  | string
  deriving DecidableEq, Repr, Inhabited

def DataType.keyword : DataType → String
  | .bool => "bool"
  | .int => "int"
  | .float => "float"
  | .string => "string"

def DataType.all : List DataType := [.bool, .int, .string, .float]

inductive Operand where
  | constant (v : Value)
  | var (frame : FrameRef) (name : String)
  | label (name : String)
  | dataType (t : DataType)
  deriving DecidableEq, Repr, Inhabited

namespace Operand

open Text

/-- Why a text is no operand. A keyword spelled with one of the foreign letters that stand for an
ASCII one when case is ignored is recognised and then names no type. -/
inductive Fault where
  | invalid
  | unknownKeyword
  | hexadecimalRange
  deriving DecidableEq, Repr

/-- Replaces each backslash with three ASCII digits by the character of that decimal code, in one
pass from left to right. -/
def unescape : List Char → List Char
  | [] => []
  | '\\' :: a :: b :: c :: r =>
    if isAsciiDigit a && isAsciiDigit b && isAsciiDigit c then
      Char.ofNat (numeral 10 ([a, b, c].map fun d => d.toNat - 48)) :: unescape r
    else '\\' :: unescape (a :: b :: c :: r)
  | x :: r => x :: unescape r

/-- Punctuation of identifiers. -/
def isIdentifierMark (c : Char) : Bool := c ∈ ['_', '-', '$', '&', '%', '*']

def isIdentifierStart (c : Char) : Bool := isAsciiLetter (foldAscii c) || isIdentifierMark c

def isIdentifierChar (c : Char) : Bool := isWordChar c || isIdentifierMark c

def isIdentifier : List Char → Bool
  | [] => false
  | c :: r => isIdentifierStart c && r.all isIdentifierChar

/-- The text without one line feed at its end. -/
def withoutFinalBreak (s : List Char) : List Char :=
  if s.getLast? = some '\n' then s.dropLast else s

/-- The data type that a keyword in any letter case names. -/
def keyword? (s : List Char) : Option DataType :=
  DataType.all.find? fun t => t.keyword.toList = s.map Char.toLower

/-- Whether a keyword is recognised, foreign letters included. -/
def isKeywordLike (s : List Char) : Bool := DataType.all.any fun t => spells t.keyword.toList s

def frameRef? : List Char → Option FrameRef
  | [a, b] =>
    if b = 'F' ∨ b = 'f' then
      let kind? := [FrameKind.globals, .locals, .temporary].find? fun k => k.letter = a.toUpper
      kind?.map fun k => ⟨k, k.letter = a, b = 'F'⟩
    else none
  | _ => none

/-- A decimal or, failing that, a hexadecimal number. -/
def readFloat (s : List Char) : Except Binary64.HexFault Binary64 :=
  match Binary64.ofText? s with
  | some x => .ok x
  | none => Binary64.ofHexText s

def readConstant (t : DataType) (s : List Char) : Except Fault Value :=
  match t with
  | .bool =>
    let word := s.map Char.toLower
    if word = ['t', 'r', 'u', 'e'] then .ok (.bool true)
    else if word = ['f', 'a', 'l', 's', 'e'] then .ok (.bool false)
    else .error .invalid
  | .int => match Integer.ofText s with
    | .ok n => .ok (.int n)
    | .error _ => .error .invalid
  | .float => match readFloat s with
    | .ok x => .ok (.float x)
    | .error .malformed => .error .invalid
    | .error .overflow => .error .hexadecimalRange
  | .string => .ok (.str (Text.ofChars (unescape s)))

/-- A constant, if the text has the form of one. -/
def parseConstant (keyword value : List Char) : Option (Except Fault Operand) :=
  let value := withoutFinalBreak value
  if !isKeywordLike keyword || value.contains '\n' then none
  else match keyword? keyword with
    | some t => some ((readConstant t value).map .constant)
    | none => some (.error .unknownKeyword)

def parseVariable (frame name : List Char) : Option Operand :=
  let name := withoutFinalBreak name
  match frameRef? frame with
  | some f => if isIdentifier name then some (.var f (String.ofList name)) else none
  | none => none

/-- Types and labels, which have no `@`. -/
def parseWord (s : List Char) : Except Fault Operand :=
  let word := withoutFinalBreak s
  if isKeywordLike word then
    match keyword? word with
    | some t => .ok (.dataType t)
    | none => .error .invalid
  else if isIdentifier word then .ok (.label (String.ofList s))
  else .error .invalid

def parse (text : String) : Except Fault Operand :=
  let s := text.toList
  let before := s.takeWhile (· != '@')
  match s.dropWhile (· != '@') with
  | [] => parseWord s
  | _ :: after =>
    match parseConstant before after with
    | some r => r
    | none => match parseVariable before after with
      | some o => .ok o
      | none => .error .invalid

/-- What names the operand in a log: a constant that holds, or the name. -/
def text (o : Operand) : Except Value.Fault Text := do
  let shown ← match o with
    | .constant v => if v.holds then v.text else pure "None"
    | .var _ name => pure (Text.ofString name)
    | .label name => pure (Text.ofString name)
    | .dataType _ => pure "None"
  return "Operand(" ++ shown ++ ")"

end Operand
end TacBench
