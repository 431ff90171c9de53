import TacBench.Code.Opcode
import TacBench.Code.Operand
import TacBench.Code.Program
import TacBench.Text.Replace

/-! Words that the editor offers for completion: the header as long as the code has none, then data
types, commands and the variables that occur in the code. -/
namespace TacBench.Editor

inductive SuggestionKind where
  | command
  | variableName
  | dataType
  | header
  deriving DecidableEq, Repr

/-- The number by which a view knows a kind. -/
def SuggestionKind.code : SuggestionKind → Nat
  | .command => 0
  | .variableName => 1
  | .dataType => 2
  | .header => 3

structure Suggestion where
  word : String
  kind : SuggestionKind
  deriving DecidableEq, Repr

namespace Completion

open Text

/-- Characters of a variable's name after its frame. -/
def isNameChar (c : Char) : Bool :=
  isAsciiLetter (foldAscii c) || isAsciiDigit c || Operand.isIdentifierMark c

/-- The name that follows a frame at the beginning of a text. -/
def nameAfterFrame? : List Char → Option (List Char)
  | a :: f :: '@' :: rest =>
    if a.toUpper ∈ ['G', 'L', 'T'] ∧ f.toUpper = 'F' then some (rest.takeWhile isNameChar) else none
  | _ => none

/-- Variables with their frames from left to right, without overlap. -/
def variablesIn (s : List Char) : List (List Char) :=
  match s with
  | [] => []
  | c :: rest =>
    match nameAfterFrame? (c :: rest) with
    | some (d :: name) =>
      (c :: rest).take (name.length + 4) :: variablesIn (rest.drop (name.length + 3))
    | _ => variablesIn rest
termination_by s.length
decreasing_by all_goals (simp only [List.length_cons, List.length_drop]; omega)

def sortedTexts (ss : List String) : List String := (ss.mergeSort fun a b => !(b < a)).eraseDups

def suggestions (code : String) : List Suggestion :=
  if !occurs Program.header.toList code.toList then [⟨Program.header, .header⟩]
  else
    (sortedTexts (DataType.all.map (·.keyword))).map (⟨·, .dataType⟩) ++
    Opcode.sortedNames.map (⟨·, .command⟩) ++
    (sortedTexts ((variablesIn code.toList).map String.ofList)).map (⟨·, .variableName⟩)

end Completion

/-- What views of the editor ask for. -/
inductive Provided where
  | analyzer
  | suggestionKinds
  deriving DecidableEq, Repr

/-- Whether all views get the same one; the analyzer holds the code and is shared. -/
def Provided.isShared : Provided → Bool
  | .analyzer => true
  | .suggestionKinds => false

end TacBench.Editor
