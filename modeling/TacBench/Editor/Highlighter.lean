import TacBench.Editor.HighlightRules
import TacBench.Editor.TextWriter
import TacBench.Pattern.Parse

/-! Colouring of a text line by line. Each rule is applied from the left again and again behind its
last match; a rule for a search comes after all others. The patterns of the rules are searched for
by an engine. -/
namespace TacBench.Editor

open Pattern (Engine)

inductive Painting where
  | whole (format : Format)
  | byGroup (formats : List Format)
  deriving DecidableEq, Repr

structure PaintRule where
  pattern : Pattern
  painting : Painting
  deriving DecidableEq, Repr

/-- Part of a line with its format. -/
structure Stretch where
  span : Pattern.Span
  format : Format
  deriving DecidableEq, Repr

inductive HighlightFault where
  /-- A search before any rule has told the font. -/
  | noFont
  /-- The pattern of a rule has not as many groups as the rule has formats. -/
  | groupCount
  /-- The next match would be the same again. -/
  | stuck
  deriving DecidableEq, Repr

namespace PaintRule

/-- The stretches of a match and where the search goes on. -/
def apply (painting : Painting) (start : Nat) (m : Pattern.Match) :
    Except HighlightFault (List Stretch × Nat) :=
  match painting with
  | .whole f => .ok ([⟨m.span, f⟩], m.span.stop)
  | .byGroup fs =>
    if fs.length ≠ m.lastGroup then .error .groupCount
    else
      let spans := (List.range' 1 fs.length).map fun n => (m.group? n).getD ⟨0, 0⟩
      .ok ((spans.zip fs).map fun (s, f) => ⟨s, f⟩, (spans.getLast?.map (·.stop)).getD start)

/-- Everything that a rule paints in a line from a place on, up to the first fault. -/
def paint (e : Engine) (r : PaintRule) (line : List Char) (start : Nat) :
    List Stretch × Option HighlightFault :=
  match e.search? r.pattern line start with
  | none => ([], none)
  | some m =>
    match apply r.painting start m with
    | .error f => ([], some f)
    | .ok (stretches, next) =>
      if start < next ∧ start < e.alphabet.size line then
        let (more, fault) := r.paint e line next
        (stretches ++ more, fault)
      else (stretches, some .stuck)
termination_by e.alphabet.size line - start

end PaintRule

/-- Everything that rules paint in a line, up to the first fault. -/
def paintLine (e : Engine) (line : List Char) :
    List PaintRule → List Stretch × Option HighlightFault
  | [] => ([], none)
  | r :: rules =>
    match r.paint e line 0 with
    | (stretches, some f) => (stretches, some f)
    | (stretches, none) =>
      let (more, fault) := paintLine e line rules
      (stretches ++ more, fault)

/-- Everything that rules paint in numbered lines, up to the first fault. -/
def paintLines (e : Engine) (rules : List PaintRule) :
    List (List Char × Nat) → List (Nat × Stretch) × Option HighlightFault
  | [] => ([], none)
  | (line, n) :: rest =>
    let (stretches, fault) := paintLine e line rules
    let painted := stretches.map fun s => (n, s)
    match fault with
    | some f => (painted, some f)
    | none =>
      let (more, fault) := paintLines e rules rest
      (painted ++ more, fault)

structure Highlighter where
  text : String := ""
  rules : List PaintRule := []
  search : Option PaintRule := none
  /-- The font of the rule added last. -/
  font : Option Font := none
  /-- Lines in which the search has found something. -/
  matched : List Nat := []
  deriving DecidableEq, Repr

namespace Highlighter

/-- Lines with their numbers. -/
def lines (h : Highlighter) : List (List Char × Nat) := (h.text.toList.splitOn '\n').zipIdx 1

def format (font : Font) (color : Option String) : Format := { foreground := color, font }

def painting (font : Font) : Coloring → Painting
  | .whole color => .whole (format font color)
  | .byGroup colors => .byGroup (colors.map (format font))

/-- Adds a rule; a pattern that cannot be read is left out. -/
def add (font : Font) (r : ColorRule) (h : Highlighter) : Highlighter :=
  let new := (r.patterns.filterMap Pattern.ofText?).map fun p => ⟨p, painting font r.coloring⟩
  { h with rules := h.rules ++ new, font := some font }

/-- Paints the whole text anew. -/
def rehighlight (e : Engine) (h : Highlighter) : List (Nat × Stretch) × Option HighlightFault :=
  paintLines e (h.rules ++ h.search.toList) h.lines

/-- Lines in which a search finds something. -/
def found (e : Engine) (h : Highlighter) : List Nat :=
  match h.search with
  | none => []
  | some r => (h.lines.filter fun (line, _) => (e.search? r.pattern line 0).isSome).map (·.2)

def searchColor : String := "yellow"

/-- Sets the text to search for, in any case, and paints anew; an empty text ends the search. The
lines found are told only after a painting without fault. -/
def setSearch (e : Engine) (text : String) (h : Highlighter) :
    List (Nat × Stretch) × Option HighlightFault × Highlighter :=
  match h.font with
  | none => ([], some .noFont, h)
  | some font =>
    let rule : PaintRule := ⟨.literal text.toList, .whole { background := some searchColor, font }⟩
    let h := { h with search := if text.isEmpty then none else some rule }
    match h.rehighlight e with
    | (painted, some f) => (painted, some f, h)
    | (painted, none) => (painted, none, { h with matched := h.found e })

end Highlighter
end TacBench.Editor
