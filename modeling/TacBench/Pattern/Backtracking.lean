import TacBench.Pattern
import TacBench.Text.Blank
import TacBench.Text.CaseFold

/-! An engine that tries all the ways in which a pattern can match at a place, the preferred one
first: the left one of two choices, and as many repetitions as there are. -/
namespace TacBench.Pattern

/-- Takes a character of a class. -/
def Cursor.take (p : Char → Bool) (c : Cursor) : List Cursor :=
  match c.after with
  | x :: rest => if p x then [{ c with before := x :: c.before, after := rest }] else []
  | [] => []

/-- Repeats a step as long as it takes something, at most as often as the count says. -/
def repeated (step : Cursor → List Cursor) : Nat → Cursor → List Cursor
  | 0, c => [c]
  | n + 1, c =>
    (step c).flatMap (fun d => if d.after.length < c.after.length then repeated step n d else []) ++
      [c]

/-- The places up to which a pattern matches from a place. -/
def ends (a : Alphabet) : Pattern → Cursor → List Cursor
  | .empty, c => [c]
  | .char ignoreCase x, c => c.take ((Member.char x).accepts a ignoreCase)
  | .any, c => c.take (!a.isBreak ·)
  | .oneOf ignoreCase members, c => c.take fun x => members.any (Member.accepts a ignoreCase x)
  | .textEnd, c => if c.after = [] ∨ c.after.length = 1 ∧ c.after.all a.isBreak then [c] else []
  | .seq p q, c => (ends a p c).flatMap (ends a q)
  | .either p q, c => ends a p c ++ ends a q c
  | .optional p, c => ends a p c ++ [c]
  | .many p, c => repeated (ends a p) c.after.length c
  | .group n p, c => (ends a p c).map (·.close a n c)
  | .behind width p, c =>
    if width ≤ c.before.length then
      ((ends a p (c.back width)).find? (·.before = c.before)).toList.map fun d =>
        { c with groups := d.groups }
    else []

/-- The preferred match at a place. -/
def matchAt? (a : Alphabet) (p : Pattern) (c : Cursor) : Option Match :=
  (p.ends a c).head?.map fun d => ⟨⟨c.position a, d.position a⟩, d.groups⟩

/-- All places of a text from left to right. -/
def places (before : List Char) : List Char → List Cursor
  | [] => [{ before, after := [] }]
  | x :: rest => { before, after := x :: rest } :: places (x :: before) rest

/-- Tries the places of a text from left to right. -/
def firstMatch? (a : Alphabet) (p : Pattern) (s : List Char) (start : Nat) : Option Match :=
  ((places [] s).filter (start ≤ ·.position a)).findSome? (p.matchAt? a)

def Engine.backtracking (a : Alphabet) : Engine := ⟨a, firstMatch? a⟩

/-- Characters of all scripts, with one place for each. -/
def Alphabet.unicode : Alphabet where
  units _ := 1
  units_pos _ := Nat.zero_lt_one
  isWordChar := Text.isWordChar
  isBlank := Text.isBlank
  isBreak := (· == '\n')
  sameLetter := Text.sameLetter

end TacBench.Pattern
