import TacBench.Value.Fault

/-! Operations on two values. Numbers of mixed kinds meet as integers or, if one is binary64, as
binary64 numbers; comparison is exact and converts nothing. -/
namespace TacBench.Value

def truth (b : Bool) : Value := .bool b

/-- A number as a binary64 number. -/
def toFloat (n : Int) : Except Fault Binary64 :=
  match Binary64.ofInt? n with
  | some x => .ok x
  | Option.none => .error .floatRange

inductive Pair where
  | integers (a b : Int)
  | floats (x y : Binary64)

/-- Two numbers brought to one kind; `none` if one of the values is no number. -/
def pair (l r : Value) : Except Fault (Option Pair) :=
  match l, r with
  | .float x, .float y => .ok (some (.floats x y))
  | .float x, r => match r.integer? with
    | some b => (toFloat b).map fun y => some (.floats x y)
    | Option.none => .ok Option.none
  | l, .float y => match l.integer? with
    | some a => (toFloat a).map fun x => some (.floats x y)
    | Option.none => .ok Option.none
  | l, r => match l.integer?, r.integer? with
    | some a, some b => .ok (some (.integers a b))
    | _, _ => .ok Option.none

/-- Arithmetic on a pair of numbers, or the complaint about the kinds. -/
def arithmetic (symbol : String) (l r : Value) (onInt : Int → Int → Except Fault Value)
    (onFloat : Binary64 → Binary64 → Except Fault Value) : Except Fault Value := do
  match ← pair l r with
  | some (.integers a b) => onInt a b
  | some (.floats x y) => onFloat x y
  | Option.none => .error (.operands symbol l.kind r.kind)

def add : Value → Value → Except Fault Value
  | .str a, .str b => .ok (.str (a ++ b))
  | .str _, r => .error (.concatenation r.kind)
  | l, r => arithmetic "+" l r (fun a b => .ok (.int (a + b))) fun x y => .ok (.float (x.add y))

def sub (l r : Value) : Except Fault Value :=
  arithmetic "-" l r (fun a b => .ok (.int (a - b))) fun x y => .ok (.float (x.sub y))

/-- A text written `count` times, which is not at all for a count below one. There is no memory for
a text above the longest. -/
def repeated (longest : Nat) (s : Text) (count : Int) : Except Fault Value :=
  if count < -Int.pow 2 63 ∨ Int.pow 2 63 ≤ count then .error .countRange
  else if count ≤ 0 ∨ s.isEmpty then .ok (.str [])
  else if Nat.pow 2 63 ≤ s.length * count.toNat then .error .repetitionLength
  else if longest < s.length * count.toNat then .error .repetitionSize
  else .ok (.str (List.replicate count.toNat s).flatten)

def repeatedBy (longest : Nat) (s : Text) (count : Value) : Except Fault Value :=
  match count.integer? with
  | some n => repeated longest s n
  | Option.none => .error (.repetition count.kind)

def mul (longest : Nat) : Value → Value → Except Fault Value
  | .str s, r => repeatedBy longest s r
  | l, .str s => repeatedBy longest s l
  | l, r => arithmetic "*" l r (fun a b => .ok (.int (a * b))) fun x y => .ok (.float (x.mul y))

def quotient (a b : Int) : Except Fault Value :=
  if b = 0 then .error .divisionByZero
  else match Binary64.ofQuotient? a b with
    | some x => .ok (.float x)
    | Option.none => .error .quotientRange

/-- Division always gives a binary64 number. -/
def div (l r : Value) : Except Fault Value :=
  arithmetic "/" l r quotient fun x y =>
    if y.isZero then .error .floatDivisionByZero else .ok (.float (x.div y))

/-- Texts are ordered by code points. -/
def less (symbol : String) (l r : Value) (swapped : Bool) : Except Fault Value :=
  match l, r with
  | .str a, .str b => .ok (truth (if swapped then b < a else a < b))
  | l, r =>
    if l.isNumber && r.isNumber then
      match l.place?, r.place? with
      | some p, some q =>
        .ok (truth (if swapped then Binary64.placeBefore q p else Binary64.placeBefore p q))
      | _, _ => .ok (truth false)
    else .error (.comparison symbol l.kind r.kind)

def lt (l r : Value) : Except Fault Value := less "<" l r false

def gt (l r : Value) : Except Fault Value := less ">" l r true

def eq (l r : Value) : Except Fault Value := .ok (truth (l.same r))

/-- Two truth values give a truth value, integers are combined bit by bit. -/
def bitwise (symbol : String) (onBool : Bool → Bool → Bool) (onInt : Int → Int → Int)
    (l r : Value) : Except Fault Value :=
  match l, r with
  | .bool a, .bool b => .ok (.bool (onBool a b))
  | l, r => match l.integer?, r.integer? with
    | some a, some b => .ok (.int (onInt a b))
    | _, _ => .error (.operands symbol l.kind r.kind)

def and (l r : Value) : Except Fault Value := bitwise "&" Bool.and Integer.bitAnd l r

def or (l r : Value) : Except Fault Value := bitwise "|" Bool.or Integer.bitOr l r

/-- The code point at a position; negative positions count from the end. -/
def pointAt (text index : Value) : Except Fault CodePoint :=
  match text with
  | .str s => match index.integer? with
    | Option.none => .error (.indexKind index.kind)
    | some i =>
      if i < -Int.pow 2 63 ∨ Int.pow 2 63 ≤ i then .error .indexSize
      else
        let i := if i < 0 then i + s.length else i
        if i < 0 then .error .indexRange
        else match s[i.toNat]? with
          | some c => .ok c
          | Option.none => .error .indexRange
  | v => .error (.notIndexable v.kind)

/-- The code of what stands at a position. -/
def codeAt (text index : Value) : Except Fault Value :=
  (pointAt text index).map fun c => .int c.toNat

def concat (l r : Value) : Except Fault Value :=
  match l, r with
  | .str a, .str b => .ok (.str (a ++ b))
  | .str _, r => .error (.joinedItem 1 r.kind)
  | l, _ => .error (.joinedItem 0 l.kind)

end TacBench.Value
