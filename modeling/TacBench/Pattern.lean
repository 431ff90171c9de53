/-! Patterns of text with groups, and what it is to match one. An alphabet says which characters
belong to a class, which are the same up to their case and how many places each takes in a text.
Patterns are searched for by an engine. -/
namespace TacBench

inductive Pattern.Member where
  | char (c : Char)
  | range (first last : Char)
  | wordChar
  | blank
  deriving DecidableEq, Repr

inductive Pattern where
  | empty
  | char (ignoreCase : Bool) (c : Char)
  /-- Any character that does not break a line. -/
  | any
  | oneOf (ignoreCase : Bool) (members : List Pattern.Member)
  /-- The end of the text, or the place before a line break that ends it. -/
  | textEnd
  | seq (p q : Pattern)
  | either (p q : Pattern)
  | optional (p : Pattern)
  | many (p : Pattern)
  | group (number : Nat) (p : Pattern)
  /-- The text of this many characters before the place matches. -/
  | behind (width : Nat) (p : Pattern)
  deriving DecidableEq, Repr

namespace Pattern

/-- What characters are to patterns. -/
structure Alphabet where
  /-- The number of places that a character takes in a text. -/
  units : Char → Nat
  units_pos : ∀ x, 0 < units x
  isWordChar : Char → Bool
  isBlank : Char → Bool
  isBreak : Char → Bool
  /-- Whether two characters are the same up to their case. -/
  sameLetter : Char → Char → Bool

/-- The number of places in a text. -/
def Alphabet.size (a : Alphabet) : List Char → Nat
  | [] => 0
  | x :: s => a.units x + a.size s

def Member.accepts (a : Alphabet) (ignoreCase : Bool) (x : Char) : Member → Bool
  | .char c => if ignoreCase then a.sameLetter c x else c == x
  | .range first last =>
    (first ≤ x && x ≤ last) ||
      ignoreCase && (List.range' first.toNat (last.toNat + 1 - first.toNat)).any fun n =>
        a.sameLetter (Char.ofNat n) x
  | .wordChar => a.isWordChar x
  | .blank => a.isBlank x

structure Span where
  start : Nat
  stop : Nat
  deriving DecidableEq, Repr

def Span.length (s : Span) : Nat := s.stop - s.start

/-- The newest span of a group among spans with the newest first. -/
def newest? (n : Nat) (groups : List (Nat × Span)) : Option Span :=
  (groups.find? (·.1 = n)).map (·.2)

/-- A place in a text, with the groups matched so far. -/
structure Cursor where
  /-- Characters before the place, nearest first. -/
  before : List Char
  after : List Char
  /-- Newest first. -/
  groups : List (Nat × Span) := []
  deriving DecidableEq, Repr

namespace Cursor

def text (c : Cursor) : List Char := c.before.reverse ++ c.after

def position (a : Alphabet) (c : Cursor) : Nat := a.size c.before

/-- So many characters to the left. -/
def back (n : Nat) (c : Cursor) : Cursor :=
  { c with before := c.before.drop n, after := (c.before.take n).reverse ++ c.after }

/-- Closes the group that began at another place. -/
def close (a : Alphabet) (c : Cursor) (number : Nat) (start : Cursor) : Cursor :=
  { c with groups := (number, ⟨start.position a, c.position a⟩) :: c.groups }

end Cursor

/-- A pattern matches from one place to another. -/
inductive Leads (a : Alphabet) : Pattern → Cursor → Cursor → Prop
  | empty {c : Cursor} : Leads a .empty c c
  | char {ignoreCase : Bool} {x y : Char} {before after : List Char} {groups : List (Nat × Span)}
      (same : (Member.char x).accepts a ignoreCase y = true) :
      Leads a (.char ignoreCase x) ⟨before, y :: after, groups⟩ ⟨y :: before, after, groups⟩
  | any {y : Char} {before after : List Char} {groups : List (Nat × Span)}
      (inside : a.isBreak y = false) :
      Leads a .any ⟨before, y :: after, groups⟩ ⟨y :: before, after, groups⟩
  | oneOf {ignoreCase : Bool} {members : List Member} {m : Member} {y : Char}
      {before after : List Char} {groups : List (Nat × Span)} (listed : m ∈ members)
      (same : m.accepts a ignoreCase y = true) :
      Leads a (.oneOf ignoreCase members) ⟨before, y :: after, groups⟩ ⟨y :: before, after, groups⟩
  | atEnd {before : List Char} {groups : List (Nat × Span)} :
      Leads a .textEnd ⟨before, [], groups⟩ ⟨before, [], groups⟩
  | beforeBreak {before : List Char} {x : Char} {groups : List (Nat × Span)}
      (breaks : a.isBreak x = true) :
      Leads a .textEnd ⟨before, [x], groups⟩ ⟨before, [x], groups⟩
  | seq {p q : Pattern} {c d e : Cursor} (first : Leads a p c d) (second : Leads a q d e) :
      Leads a (.seq p q) c e
  | left {p q : Pattern} {c d : Cursor} (chosen : Leads a p c d) : Leads a (.either p q) c d
  | right {p q : Pattern} {c d : Cursor} (chosen : Leads a q c d) : Leads a (.either p q) c d
  | absent {p : Pattern} {c : Cursor} : Leads a (.optional p) c c
  | present {p : Pattern} {c d : Cursor} (once : Leads a p c d) : Leads a (.optional p) c d
  | stop {p : Pattern} {c : Cursor} : Leads a (.many p) c c
  | again {p : Pattern} {c d e : Cursor} (once : Leads a p c d) (more : Leads a (.many p) d e) :
      Leads a (.many p) c e
  | group {n : Nat} {p : Pattern} {c d : Cursor} (inside : Leads a p c d) :
      Leads a (.group n p) c (d.close a n c)
  | behind {width : Nat} {p : Pattern} {c d : Cursor} (deep : width ≤ c.before.length)
      (inside : Leads a p (c.back width) d) (here : d.before = c.before) :
      Leads a (.behind width p) c { c with groups := d.groups }

structure Match where
  span : Span
  /-- Newest first. -/
  groups : List (Nat × Span)
  deriving DecidableEq, Repr

namespace Match

/-- The highest group that took part, or 0. -/
def lastGroup (m : Match) : Nat := m.groups.foldl (fun n g => max n g.1) 0

def group? (m : Match) (n : Nat) : Option Span := newest? n m.groups

/-- The match is that of a pattern from one place to another. -/
structure IsFrom (a : Alphabet) (p : Pattern) (b d : Cursor) (m : Match) : Prop where
  fresh : b.groups = []
  leads : Leads a p b d
  span : m.span = ⟨b.position a, d.position a⟩
  groups : ∀ n, m.group? n = newest? n d.groups

end Match

/-- A search for patterns in texts from a place on. -/
structure Engine where
  alphabet : Alphabet
  search? : Pattern → List Char → Nat → Option Match

/-- The engine gives a match that begins at a place or behind it and before all others, and none
only if there is none. -/
structure Engine.FindsFirst (e : Engine) : Prop where
  found : ∀ {p : Pattern} {c : Cursor} {m : Match},
    e.search? p c.text (c.position e.alphabet) = some m →
    ∃ b d, b.text = c.text ∧ c.position e.alphabet ≤ b.position e.alphabet ∧
      m.IsFrom e.alphabet p b d ∧
      ∀ b' d', b'.text = c.text → c.position e.alphabet ≤ b'.position e.alphabet →
        Leads e.alphabet p b' d' → b.position e.alphabet ≤ b'.position e.alphabet
  missed : ∀ {p : Pattern} {c : Cursor}, e.search? p c.text (c.position e.alphabet) = none →
    ∀ b d, b.text = c.text → c.position e.alphabet ≤ b.position e.alphabet →
      ¬ Leads e.alphabet p b d

/-- The number of characters that a pattern takes, if it is always the same. -/
def width? : Pattern → Option Nat
  | .empty | .textEnd | .behind .. => some 0
  | .char .. | .any | .oneOf .. => some 1
  | .seq p q => return (← width? p) + (← width? q)
  | .either p q => do
    let n ← width? p
    if (← width? q) = n then some n else none
  | .optional _ | .many _ => none
  | .group _ p => width? p

/-- A text with each character in any case. -/
def literal (s : List Char) : Pattern :=
  s.foldr (fun c p => .seq (.char true c) p) .empty

end Pattern
end TacBench
