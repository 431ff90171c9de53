import TacBench.Text
import TacBench.Text.Replace

/-! Patterns that choose tests: part of a section's name, and if there is a slash the whole name of
a test in it. -/
namespace TacBench.Bench

structure Wildcard where
  sectionPart : String
  name : Option String
  deriving DecidableEq, Repr

/-- Reads a pattern; empty parts between slashes do not count. -/
def Wildcard.ofText? (s : String) : Option Wildcard :=
  match (s.toList.splitOn '/').filter (!·.isEmpty) with
  | [a] => some ⟨String.ofList a, none⟩
  | [a, b] => some ⟨String.ofList a, some (String.ofList b)⟩
  | _ => none

/-- The patterns without repetition, and the texts that are none. An empty text is left out. -/
def Wildcard.readAll (texts : List String) : List Wildcard × List String :=
  texts.foldl (fun (found, refused) s =>
    if s.isEmpty then (found, refused)
    else match ofText? s with
      | some w => (if w ∈ found then found else found ++ [w], refused)
      | none => (found, refused ++ [s])) ([], [])

def Wildcard.allowsSection (w : Wildcard) (name : String) : Bool :=
  Text.occurs w.sectionPart.toList name.toList

def Wildcard.allowsTest (w : Wildcard) (sectionName : String) (name : Text) : Bool :=
  w.allowsSection sectionName && w.name.all fun n => n == name

/-- Without patterns everything is chosen. An empty name stands for the section as a whole. -/
def allowed (ws : List Wildcard) (sectionName : String) (name : Text) : Bool :=
  ws.isEmpty || ws.any fun w =>
    if name.isEmpty then w.allowsSection sectionName else w.allowsTest sectionName name

end TacBench.Bench
