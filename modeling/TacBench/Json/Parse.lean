import TacBench.Json
import TacBench.Number.Integer

/-! Reading JSON text. Besides the standard it accepts the names of the infinities and of no number;
a key that occurs again replaces the earlier entry. The parser carries the position of the text that
is left, because errors name it; its fuel is the length of the text. Lists and dictionaries may lie
in each other up to a bound. -/
namespace TacBench.Json

open Text

inductive Cause where
  | byteOrderMark
  | value
  | extraData
  | propertyName
  | colon
  | comma
  | unterminated
  | controlCharacter
  | escape
  | hexEscape
  deriving DecidableEq, Repr

def Cause.message : Cause → String
  | .byteOrderMark => "Unexpected UTF-8 BOM (decode using utf-8-sig)"
  | .value => "Expecting value"
  | .extraData => "Extra data"
  | .propertyName => "Expecting property name enclosed in double quotes"
  | .colon => "Expecting ':' delimiter"
  | .comma => "Expecting ',' delimiter"
  | .unterminated => "Unterminated string starting at"
  | .controlCharacter => "Invalid control character at"
  | .escape => "Invalid \\escape"
  | .hexEscape => "Invalid \\uXXXX escape"

inductive Fault where
  | malformed (cause : Cause) (position : Nat)
  | integer (digits : Nat)
  /-- Too many lists and dictionaries lie in each other; the innermost is of this kind. -/
  | nesting (isList : Bool)
  deriving DecidableEq, Repr

/-- The line and column of a position in a text, both from one. -/
def lineColumn (text : List Char) (position : Nat) : Nat × Nat :=
  let before := text.take position
  (before.count '\n' + 1, (before.reverse.takeWhile (· != '\n')).length + 1)

/-- The error as it is reported about a text. -/
def Fault.message (text : List Char) : Fault → String
  | .malformed cause position =>
    let (line, column) := lineColumn text position
    cause.message ++ s!": line {line} column {column} (char {position})"
  | .integer n =>
    s!"Exceeds the limit (4300 digits) for integer string conversion: value has {n} digits; " ++
      "use sys.set_int_max_str_digits() to increase the limit"
  | .nesting isList =>
    let kind := if isList then "array" else "object"
    s!"maximum recursion depth exceeded while decoding a JSON {kind} from a unicode string"

/-- What is left of the text and where it begins. -/
structure Rest where
  position : Nat
  chars : List Char

def Rest.drop (r : Rest) (n : Nat) : Rest := ⟨r.position + n, r.chars.drop n⟩

def isSpace (c : Char) : Bool := c == ' ' || c == '\t' || c == '\n' || c == '\r'

def Rest.skipSpace (r : Rest) : Rest := r.drop (r.chars.takeWhile isSpace).length

/-- Four hexadecimal digits. -/
def hexQuad? : List Char → Option Nat
  | a :: b :: c :: d :: _ => do
    return numeral 16 [← hexValue? a, ← hexValue? b, ← hexValue? c, ← hexValue? d]
  | _ => none

def plainEscape? : Char → Option Char
  | '"' => some '"'
  | '\\' => some '\\'
  | '/' => some '/'
  | 'b' => some '\x08'
  | 'f' => some '\x0c'
  | 'n' => some '\n'
  | 'r' => some '\r'
  | 't' => some '\t'
  | _ => none

/-- The code point of an escape `\uXXXX`, of which `cs` follows the letter, and the number of
characters that it takes from there. Two escapes can be the halves of one character. -/
def unicodeEscape (position : Nat) (cs : List Char) : Except Fault (CodePoint × Nat) :=
  if cs.length ≤ 4 then .error (.malformed .hexEscape (position - 1))
  else match hexQuad? cs with
    | none => .error (.malformed .hexEscape (position - 1))
    | some high =>
      let alone := ((CodePoint.ofNat? high).getD (.char '\uFFFD'), 4)
      if 0xD800 ≤ high ∧ high < 0xDC00 then
        match cs.drop 4 with
        | '\\' :: 'u' :: more =>
          if more.length ≤ 4 then .ok alone
          else match hexQuad? more with
            | none => .error (.malformed .hexEscape (position + 5))
            | some low =>
              if 0xDC00 ≤ low ∧ low < 0xE000 then
                .ok (.char (Char.ofNat (0x10000 + (high - 0xD800) * 0x400 + (low - 0xDC00))), 10)
              else .ok alone
        | _ => .ok alone
      else .ok alone

/-- The rest of a string whose opening quote stands at `start`. -/
def string (start : Nat) : Nat → Rest → Except Fault (Text × Rest)
  | 0, _ => .error (.malformed .unterminated start)
  | fuel + 1, r =>
    match r.chars with
    | [] => .error (.malformed .unterminated start)
    | '"' :: _ => .ok ([], r.drop 1)
    | '\\' :: [] => .error (.malformed .unterminated start)
    | '\\' :: 'u' :: cs => do
      let (c, n) ← unicodeEscape (r.position + 2) cs
      let (s, rest) ← string start fuel (r.drop (2 + n))
      return (c :: s, rest)
    | '\\' :: e :: _ =>
      match plainEscape? e with
      | none => .error (.malformed .escape r.position)
      | some c => do
        let (s, rest) ← string start fuel (r.drop 2)
        return (.char c :: s, rest)
    | c :: _ =>
      if c.toNat < 32 then .error (.malformed .controlCharacter r.position)
      else do
        let (s, rest) ← string start fuel (r.drop 1)
        return (.char c :: s, rest)

/-- A number at the beginning of a text: its characters and whether it is an integer. -/
def numberText? (cs : List Char) : Option (List Char × Bool) :=
  let (sign, cs) := match cs with
    | '-' :: r => (['-'], r)
    | r => ([], r)
  let whole := match cs with
    | '0' :: _ => ['0']
    | r => r.takeWhile isAsciiDigit
  if whole.isEmpty then none
  else
    let cs := cs.drop whole.length
    let fraction := match cs with
      | '.' :: r =>
        match r.takeWhile isAsciiDigit with
        | [] => []
        | ds => '.' :: ds
      | _ => []
    let cs := cs.drop fraction.length
    let exponent := match cs with
      | e :: r =>
        if e = 'e' ∨ e = 'E' then
          let (mark, r) := match r with
            | '-' :: r => (['-'], r)
            | '+' :: r => (['+'], r)
            | r => ([], r)
          match r.takeWhile isAsciiDigit with
          | [] => []
          | ds => e :: mark ++ ds
        else []
      | [] => []
    some (sign ++ whole ++ fraction ++ exponent, fraction.isEmpty && exponent.isEmpty)

def number (r : Rest) : Except Fault (Json × Rest) :=
  match numberText? r.chars with
  | none => .error (.malformed .value r.position)
  | some (text, whole) =>
    let rest := r.drop text.length
    if whole then
      match Integer.ofText text with
      | .ok n => .ok (.int n, rest)
      | .error (.tooLong n) => .error (.integer n)
      | .error .malformed => .error (.malformed .value r.position)
    else .ok (.float ((Binary64.ofText? text).getD .nan), rest)

/-- The words that stand for values. -/
def words : List (List Char × Json) :=
  [("null".toList, .null), ("true".toList, .bool true), ("false".toList, .bool false),
    ("NaN".toList, .float .nan), ("Infinity".toList, .float (.infinite false)),
    ("-Infinity".toList, .float (.infinite true))]

mutual

/-- A value, inside which lists and dictionaries may lie to a depth. -/
def value (depth : Nat) : Nat → Rest → Except Fault (Json × Rest)
  | 0, r => .error (.malformed .value r.position)
  | fuel + 1, r =>
    match r.chars with
    | [] => .error (.malformed .value r.position)
    | '"' :: _ => do
      let (s, rest) ← string r.position (r.chars.length + 1) (r.drop 1)
      return (.str s, rest)
    | '[' :: _ =>
      let r := (r.drop 1).skipSpace
      if depth = 0 then .error (.nesting true)
      else match r.chars with
        | ']' :: _ => .ok (.list [], r.drop 1)
        | _ => do
          let (xs, rest) ← items (depth - 1) fuel r
          return (.list xs, rest)
    | '\x7b' :: _ =>
      let r := (r.drop 1).skipSpace
      if depth = 0 then .error (.nesting false)
      else match r.chars with
        | '\x7d' :: _ => .ok (.dict [], r.drop 1)
        | _ => do
          let (es, rest) ← entries (depth - 1) fuel [] r
          return (.dict es, rest)
    | cs =>
      match words.find? fun w => w.1.isPrefixOf cs with
      | some (w, j) => .ok (j, r.drop w.length)
      | none => number r

/-- The items of a list, of which at least one is left. -/
def items (depth : Nat) : Nat → Rest → Except Fault (List Json × Rest)
  | 0, r => .error (.malformed .value r.position)
  | fuel + 1, r => do
    let (x, r) ← value depth fuel r
    let r := r.skipSpace
    match r.chars with
    | ']' :: _ => return ([x], r.drop 1)
    | ',' :: _ =>
      let (xs, rest) ← items depth fuel (r.drop 1).skipSpace
      return (x :: xs, rest)
    | _ => throw (.malformed .comma r.position)

/-- The entries of a dictionary, of which at least one is left, after those already read. -/
def entries (depth : Nat) :
    Nat → List (Text × Json) → Rest → Except Fault (List (Text × Json) × Rest)
  | 0, _, r => .error (.malformed .value r.position)
  | fuel + 1, done, r =>
    match r.chars with
    | '"' :: _ => do
      let (key, r) ← string r.position (r.chars.length + 1) (r.drop 1)
      let r := r.skipSpace
      match r.chars with
      | ':' :: _ =>
        let (v, r) ← value depth fuel (r.drop 1).skipSpace
        let done := Dictionary.insert done key v
        let r := r.skipSpace
        match r.chars with
        | '\x7d' :: _ => return (done, r.drop 1)
        | ',' :: _ => entries depth fuel done (r.drop 1).skipSpace
        | _ => throw (.malformed .comma r.position)
      | _ => throw (.malformed .colon r.position)
    | _ => .error (.malformed .propertyName r.position)

end

/-- Reads a text in which so many lists and dictionaries may lie in each other. -/
def parse (nesting : Nat) (text : List Char) : Except Fault Json := do
  if text.head? = some '\uFEFF' then throw (.malformed .byteOrderMark 0)
  let (j, r) ← value nesting (2 * text.length + 2) (Rest.skipSpace ⟨0, text⟩)
  let r := r.skipSpace
  if r.chars.isEmpty then return j else throw (.malformed .extraData r.position)

end TacBench.Json
