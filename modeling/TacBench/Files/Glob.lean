import TacBench.Files.Tree

/-! Patterns for file names: a star, a question mark, a set in brackets. A bracket that is never
closed stands for itself, and a name that begins with a dot is matched only by a pattern that
does. -/
namespace TacBench.Files.Glob

inductive Item where
  | many
  | one
  | set (negated : Bool) (ranges : List (Char × Char))
  | char (c : Char)
  deriving DecidableEq, Repr

/-- Cuts the inside of a bracket at its hyphens. The next `guarded` characters are not cut at: a
hyphen needs a character on either side to stand for a range. -/
def chunks (guarded : Nat) (current : List Char) : List Char → List (List Char)
  | [] => [current.reverse]
  | c :: r =>
    if c = '-' ∧ guarded = 0 then current.reverse :: chunks 2 [] r
    else chunks (guarded - 1) (c :: current) r

/-- A hyphen at the end stands for itself. -/
def closeLast : List (List Char) → List (List Char)
  | [] => []
  | [c, []] => [c ++ ['-']]
  | c :: r => c :: closeLast r

/-- Removes ranges that run backwards, with both their ends. -/
def dropBackward : List (List Char) → List (List Char)
  | [] => []
  | c :: r =>
    match dropBackward r with
    | [] => [c]
    | d :: rest =>
      match c.getLast?, d.head? with
      | some a, some b => if b < a then (c.dropLast ++ d.drop 1) :: rest else c :: d :: rest
      | _, _ => c :: d :: rest

/-- The ranges that the chunks stand for: one from each chunk to the next, and single characters. -/
def ranges : List (List Char) → List (Char × Char)
  | [] => []
  | [c] => c.map fun x => (x, x)
  | c :: d :: r =>
    let between := match c.getLast?, d.head? with
      | some a, some b => [(a, b)]
      | _, _ => []
    (c.dropLast.map fun x => (x, x)) ++ between ++ ranges (d.drop 1 :: r)
termination_by l => l.length

/-- The set that the inside of a bracket describes. Whether it is negated shows once backward ranges
are gone; a hyphen directly behind the exclamation mark then stands for itself. -/
def bracket (inside : List Char) : Item :=
  let guarded := if inside.head? = some '!' then 2 else 1
  match dropBackward (closeLast (chunks guarded [] inside)) with
  | ['!'] :: d :: r => .set true (ranges (('-' :: d) :: r))
  | ('!' :: c) :: r => .set true (ranges (c :: r))
  | cs => .set false (ranges cs)

/-- The inside of a bracket and what follows it, if it is closed. A closing bracket directly after
the opening one, or after an exclamation mark there, belongs to the inside. -/
def inside? (s : List Char) : Option (List Char × List Char) :=
  let first := match s with
    | '!' :: ']' :: _ => 2
    | '!' :: _ => 1
    | ']' :: _ => 1
    | _ => 0
  let body := (s.drop first).takeWhile (· != ']')
  if (s.drop first).contains ']' then
    some (s.take first ++ body, s.drop (first + body.length + 1))
  else none

/-- The items of a pattern; the fuel is its length. -/
def itemsWithin : Nat → List Char → List Item
  | 0, _ => []
  | _, [] => []
  | n + 1, '*' :: r => .many :: itemsWithin n r
  | n + 1, '?' :: r => .one :: itemsWithin n r
  | n + 1, '[' :: r =>
    match inside? r with
    | some (inside, rest) => bracket inside :: itemsWithin n rest
    | none => .char '[' :: itemsWithin n r
  | n + 1, c :: r => .char c :: itemsWithin n r

def items (pattern : String) : List Item := itemsWithin pattern.length pattern.toList

def Item.accepts (i : Item) (c : Char) : Bool :=
  match i with
  | .many => false
  | .one => true
  | .set negated rs => (rs.any fun (a, b) => a ≤ c && c ≤ b) != negated
  | .char d => c == d

def accepts : List Item → List Char → Bool
  | [], s => s.isEmpty
  | .many :: r, [] => accepts r []
  | .many :: r, c :: s => accepts r (c :: s) || accepts (.many :: r) s
  | _ :: _, [] => false
  | i :: r, c :: s => i.accepts c && accepts r s
termination_by p s => p.length + s.length

def matchesName (pattern name : String) : Bool := accepts (items pattern) name.toList

def isPattern (s : String) : Bool := s.toList.any fun c => c == '*' || c == '?' || c == '['

def isHidden (s : String) : Bool := s.toList.head? == some '.'

/-- The names in a directory that a pattern accepts. -/
def namesIn (t : Tree) (dir pattern : String) (onlyDirectories : Bool) : List String :=
  let dir := if dir.isEmpty then "." else dir
  match t.names dir with
  | .error _ => []
  | .ok names => names.filter fun n =>
      (isHidden pattern || !isHidden n) && matchesName pattern n &&
        (!onlyDirectories || t.isDirectory (join dir n))

/-- The paths that a pattern accepts part by part; the fuel bounds the number of parts. -/
def pathsWithin (t : Tree) : Nat → (onlyDirectories : Bool) → String → List String
  | 0, _, _ => []
  | n + 1, onlyDirectories, pattern =>
    let dir := directory pattern
    let name := baseName pattern
    if !isPattern pattern then
      if name.isEmpty then if t.isDirectory dir then [pattern] else []
      else if t.exists? pattern then [pattern] else []
    else if dir.isEmpty then namesIn t "" name onlyDirectories
    else
      let dirs := if dir != pattern && isPattern dir then pathsWithin t n true dir else [dir]
      dirs.flatMap fun d =>
        let found :=
          if isPattern name then namesIn t d name onlyDirectories
          else if name.isEmpty then if t.isDirectory d then [name] else []
          else if t.exists? (join d name) then [name] else []
        found.map (join d)

def paths (t : Tree) (pattern : String) : List String :=
  pathsWithin t (pattern.length + 1) false pattern

end TacBench.Files.Glob
