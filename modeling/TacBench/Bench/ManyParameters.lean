import TacBench.Number.Integer

/-! A benchmark program that passes many parameters through a recursion. Its expression over the
parameters is drawn at random, and the program tests the value of that expression. -/
namespace TacBench.Bench.ManyParameters

/-- A random fraction of 2 ^ 31. -/
abbrev Draw := Fin 2147483648

namespace Draw

/-- One of the numbers below a bound. -/
def below (bound : Nat) (d : Draw) : Nat := d.val * bound / 2147483648

/-- The successor in a linear congruential sequence. -/
def next (state : Int) : Draw :=
  ⟨((1103515245 * state + 12345) % 2147483648).toNat, by omega⟩

/-- The first draws of the sequence of a seed. -/
def sequence : Nat → Int → List Draw
  | 0, _ => []
  | n + 1, seed => next seed :: sequence n (next seed).val

end Draw

inductive Operator where
  | add
  | sub
  | mul
  deriving DecidableEq, Repr

def Operator.sign : Operator → Char
  | .add => '+'
  | .sub => '-'
  | .mul => '*'

def Operator.ofDraw (d : Draw) : Operator :=
  match d.below 3 with
  | 0 => .add
  | 1 => .sub
  | _ => .mul

def typeOfDraw (d : Draw) : String := if d.below 2 = 0 then "integer" else "double"

def letters : List Char := "abcdefghijklmnopqrstuvwxyz".toList

/-- All words of a length in the order of a dictionary. -/
def wordsOfLength : Nat → List (List Char)
  | 0 => [[]]
  | n + 1 => letters.flatMap fun c => (wordsOfLength n).map (c :: ·)

/-- Words that cannot name a parameter. The recursion has one of its own, `n`. -/
def reserved : List String := [
  "as", "asc", "declare", "dim", "do", "else", "end", "chr", "function", "if", "input", "length",
  "loop", "print", "return", "scope", "substr", "then", "while", "and", "continue", "elseif",
  "exit", "false", "for", "next", "not", "or", "shared", "static", "true", "integer", "double",
  "boolean", "string", "n", "assert", "async", "await", "break", "class", "def", "del", "elif",
  "except", "finally", "from", "global", "import", "in", "is", "lambda", "nonlocal", "pass",
  "raise", "try", "with", "yield"]

/-- Names of up to a length, shorter ones first. -/
def namesUpTo (length : Nat) : List String :=
  ((List.range' 1 length).flatMap fun n => (wordsOfLength n).map String.ofList).filter
    (!reserved.contains ·)

/-- The least length of which there are at least as many words as the count says. -/
def nameLength (count : Nat) : Nat :=
  ((List.range (count + 1)).find? fun k => count ≤ Nat.pow letters.length k).getD 0

def names (count : Nat) : List String := (namesUpTo (nameLength count)).take count

/-- The value of a chain of operands; a product binds its operands first. The first argument is the
sum so far, the second the product in work. -/
def evaluateFrom (sum product : Int) : List (Operator × Int) → Int
  | [] => sum + product
  | (.mul, v) :: rest => evaluateFrom sum (product * v) rest
  | (.add, v) :: rest => evaluateFrom (sum + product) v rest
  | (.sub, v) :: rest => evaluateFrom (sum + product) (-v) rest

/-- The value of operands with an operator behind each; the last operator does not count. -/
def evaluate (operands : List Int) (operators : List Operator) : Int :=
  match operands with
  | [] => 0
  | v :: rest => evaluateFrom 0 v (operators.zip rest)

/-- The nesting of a sum, if there is one, with one more product. -/
def nestingWith (sum : Option Nat) (product : Nat) : Nat :=
  match sum with
  | some n => max n product + 1
  | none => product

/-- How many operations lie in each other, after a sum and with a product in work. -/
def nestingFrom (sum : Option Nat) (product : Nat) : List Operator → Nat
  | [] => nestingWith sum product
  | .mul :: rest => nestingFrom sum (product + 1) rest
  | _ :: rest => nestingFrom (some (nestingWith sum product)) 0 rest

structure Sample where
  parameters : List String
  operators : List Operator
  values : List Nat
  types : List String
  deriving DecidableEq, Repr

inductive Fault where
  /-- The count is no integer. -/
  | count
  /-- The count is not positive. -/
  | range
  /-- There are no parameters to form an expression of. -/
  | noParameters
  /-- Too many operations lie in each other. -/
  | nesting
  /-- The value of the expression has too many digits. -/
  | resultLength
  deriving DecidableEq, Repr

namespace Sample

/-- The sample of a count, with draws for the operators, then the values, then the types. -/
def ofDraws (count : Nat) (draws : List Draw) : Sample :=
  let parameters := names count
  let n := parameters.length
  { parameters
    operators := (draws.take n).map Operator.ofDraw
    values := ((draws.drop n).take count).map (·.below 16)
    types := ((draws.drop (n + count)).take n).map typeOfDraw }

/-- The last operator is left out and the blank before it stays. -/
def expression (s : Sample) : String :=
  let terms := (s.parameters.zip s.operators).map fun (p, o) => p ++ " " ++ String.singleton o.sign
  String.ofList (" ".intercalate terms).toList.dropLast

def result (s : Sample) : Int :=
  evaluate ((s.values.take s.parameters.length).map Int.ofNat) s.operators

/-- How many operations of the expression lie in each other. -/
def nesting (s : Sample) : Nat := nestingFrom none 0 s.operators.dropLast

/-- The value of the expression, by an evaluator that allows a nesting up to a limit. -/
def expected (limit : Nat) (s : Sample) : Except Fault Int :=
  if s.parameters.isEmpty then .error .noParameters
  else if limit < s.nesting then .error .nesting
  else .ok s.result

def listed (items : List String) : String := ", ".intercalate items

/-- The lines of the program. -/
def lines (s : Sample) : List String :=
  let header := listed ((s.parameters.zip s.types).map fun (p, t) => p ++ " AS " ++ t)
  let arguments := listed s.parameters
  let expression := s.expression
  let values := listed (s.values.map toString)
  let result := Integer.text s.result
  [ "' big count of function parameters",
    "    ",
    s!"function testing(n as integer, {header}) as integer",
    "    dim res as integer",
    "    if n > 0 then",
    "        n = n - 1",
    s!"        res = testing(n, {arguments})",
    "        return res",
    "    else ",
    s!"        return {expression}",
    "    end if",
    "end function",
    "",
    "scope",
    "    dim res as integer",
    s!"    res = testing(10, {values})",
    s!"    if res = {result} then",
    "        print !\"OK\";",
    "    else",
    "        print !\"NONOK\";",
    "    end if",
    "end scope",
    ""]

def program (s : Sample) : String := String.join (s.lines.map (· ++ "\n"))

end Sample

def defaultCount : Int := 50

/-- The count that a command line gives. -/
def count (arguments : List String) : Except Fault Int :=
  match arguments with
  | [] => .ok defaultCount
  | text :: _ => (Integer.ofText text.toList).mapError fun _ => .count

def sample (limit : Nat) (arguments : List String) (draws : Nat → List Draw) :
    Except Fault Sample := do
  let n ← count arguments
  if n ≤ 0 then throw .range
  let s := Sample.ofDraws n.toNat (draws (3 * n.toNat))
  let value ← s.expected limit
  if Integer.hasText value then return s else throw .resultLength

end TacBench.Bench.ManyParameters
