/-! Coloured text that is written to the end of a document. A writer works on one of several
documents; each has a font that its new pieces take over. -/
namespace TacBench.Editor

structure Font where
  italic : Bool
  bold : Bool
  deriving DecidableEq, Repr

structure Format where
  foreground : Option String := none
  background : Option String := none
  font : Font
  deriving DecidableEq, Repr

structure Document where
  font : Font
  /-- Pieces of text; the text that was there before has no format. -/
  pieces : List (String × Option Format)
  deriving DecidableEq, Repr

def Document.ofText (text : String) (font : Font) : Document :=
  ⟨font, if text.isEmpty then [] else [(text, none)]⟩

structure TextWriter where
  documents : List Document
  current : Option Nat := none
  deriving DecidableEq, Repr

namespace TextWriter

def select (n : Nat) (w : TextWriter) : TextWriter := { w with current := some n }

/-- Changes the current document, if there is one. -/
def change? (f : Document → Document) (w : TextWriter) : Option TextWriter :=
  w.current.map fun n => { w with documents := w.documents.modify n f }

def write? (text : String) (color : Option String) (w : TextWriter) : Option TextWriter :=
  w.change? fun d =>
    { d with pieces := d.pieces ++ [(text, some { foreground := color, font := d.font })] }

def clear? (w : TextWriter) : Option TextWriter := w.change? fun d => { d with pieces := [] }

end TextWriter
end TacBench.Editor
