/-! Texts as sequences of code points. Besides characters a text may hold halves of a surrogate pair
that stand alone: they have a code, but no character and no place in a file. -/
namespace TacBench

inductive CodePoint where
  | char (c : Char)
  /-- The half whose code lies so far behind 0xD800. -/
  | half (offset : Fin 0x800)
  deriving DecidableEq, Repr, Inhabited

abbrev Text := List CodePoint

namespace CodePoint

def toNat : CodePoint → Nat
  | char c => c.toNat
  | half offset => 0xD800 + offset.val

def ofNat? (n : Nat) : Option CodePoint :=
  if h : n.isValidChar then some (char (Char.ofNatAux n h))
  else if h : 0xD800 ≤ n ∧ n < 0xE000 then some (half ⟨n - 0xD800, by omega⟩)
  else none

/-- The character that readers see. A half is to them like U+FFFD, which none of them takes for a
part of anything. -/
def seen : CodePoint → Char
  | char c => c
  | half _ => '\uFFFD'

def isHalf : CodePoint → Bool
  | char _ => false
  | half _ => true

instance : LT CodePoint := ⟨fun a b => a.toNat < b.toNat⟩

instance (a b : CodePoint) : Decidable (a < b) := inferInstanceAs (Decidable (a.toNat < b.toNat))

end CodePoint

namespace Text

def ofChars (s : List Char) : Text := s.map .char

def ofString (s : String) : Text := ofChars s.toList

instance : Coe String Text := ⟨ofString⟩

/-- The characters that readers see. -/
def seen (s : Text) : List Char := s.map CodePoint.seen

/-- The text as a string, in which halves show as U+FFFD. -/
def shown (s : Text) : String := String.ofList s.seen

theorem seen_ofChars (s : List Char) : (ofChars s).seen = s := by
  induction s with
  | nil => rfl
  | cons c r ih => simpa [ofChars, seen, CodePoint.seen] using ih

theorem shown_ofString (s : String) : (ofString s).shown = s := by
  simp [shown, ofString, seen_ofChars]

/-- Applies a function to the runs of characters between halves. -/
def mapRuns (f : List Char → List Char) (s : Text) : Text :=
  go [] s
where
  go (run : List Char) : Text → Text
    | [] => ofChars (f run.reverse)
    | .char c :: r => go (c :: run) r
    | .half h :: r => ofChars (f run.reverse) ++ .half h :: go [] r

/-- A text with blanks behind it up to a width. -/
def padded (width : Nat) (s : Text) : Text :=
  s ++ List.replicate (width - s.length) (.char ' ')

/-- A text behind blanks up to a width. -/
def rightAligned (width : Nat) (s : Text) : Text :=
  List.replicate (width - s.length) (.char ' ') ++ s

end Text
end TacBench
