import TacBench.Pattern

/-! Patterns as texts: groups in round brackets are numbered from left to right, `(?i)` ignores case
in the rest of its group, `(?<=…)` looks behind, a class stands in square brackets, and `?`, `*` and
`+` repeat what is before them. -/
namespace TacBench.Pattern

/-- What is left of a pattern, and what has been met so far. -/
structure Reading where
  rest : List Char
  ignoreCase : Bool := false
  groups : Nat := 0

/-- An escaped character: a class, or the character itself. -/
def escaped : Char → Member
  | 'w' => .wordChar
  | 's' => .blank
  | c => .char c

/-- The members of a class up to its closing bracket, and the rest. -/
def members? : List Char → Option (List Member × List Char)
  | [] => none
  | ']' :: rest => some ([], rest)
  | '\\' :: c :: rest => (members? rest).map fun (ms, r) => (escaped c :: ms, r)
  | a :: '-' :: b :: rest =>
    if b = ']' then some ([.char a, .char '-'], rest)
    else (members? rest).map fun (ms, r) => (.range a b :: ms, r)
  | c :: rest => (members? rest).map fun (ms, r) => (.char c :: ms, r)

/-- A pattern with the repetition sign that follows it. -/
def repetition (p : Pattern) : List Char → Pattern × List Char
  | '?' :: rest => (.optional p, rest)
  | '*' :: rest => (.many p, rest)
  | '+' :: rest => (.seq p (.many p), rest)
  | rest => (p, rest)

def joined : Option Pattern → Pattern → Pattern
  | none, p => p
  | some q, p => .either q p

/-- Reads up to the end of a group: the choices that are complete, the one in work, and the rest. -/
def choices (choice : Option Pattern) (current : Pattern) :
    Nat → Reading → Option (Pattern × Reading)
  | 0, _ => none
  | fuel + 1, r =>
    let goOn (p : Pattern) (rest : List Char) (r : Reading) : Option (Pattern × Reading) :=
      let (p, rest) := repetition p rest
      choices choice (.seq current p) fuel { r with rest }
    let inside (r : Reading) : Option (Pattern × List Char × Reading) := do
      let (p, after) ← choices none .empty fuel r
      match after.rest with
      | ')' :: rest => some (p, rest, { after with ignoreCase := r.ignoreCase })
      | _ => none
    match r.rest with
    | [] => some (joined choice current, r)
    | ')' :: _ => some (joined choice current, r)
    | '|' :: rest => choices (some (joined choice current)) .empty fuel { r with rest }
    | '(' :: '?' :: 'i' :: ')' :: rest =>
      choices choice current fuel { r with rest, ignoreCase := true }
    | '(' :: '?' :: '<' :: '=' :: rest => do
      let (p, rest, r) ← inside { r with rest }
      goOn (.behind (← p.width?) p) rest r
    | '(' :: rest => do
      let number := r.groups + 1
      let (p, rest, r) ← inside { r with rest, groups := number }
      goOn (.group number p) rest r
    | '[' :: rest => do
      let (ms, rest) ← members? rest
      goOn (.oneOf r.ignoreCase ms) rest r
    | '.' :: rest => goOn .any rest r
    | '$' :: rest => goOn .textEnd rest r
    | '\\' :: c :: rest => goOn (.oneOf r.ignoreCase [escaped c]) rest r
    | c :: rest => goOn (.char r.ignoreCase c) rest r

def ofText? (text : String) : Option Pattern := do
  let cs := text.toList
  match ← choices none .empty (cs.length + 1) { rest := cs } with
  | (p, ⟨[], _, _⟩) => some p
  | _ => none

end TacBench.Pattern
