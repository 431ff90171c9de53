import TacBench.Json
import TacBench.Text.Digit

/-! Command lines with options and operands. A long option may be shortened as long as it stays
unambiguous, short options that take no value may be joined, and after `--` there are operands only.
Operands are taken as soon as they come: what follows the last operand that fits, with an option in
between, is not recognised. A value that is only `--` counts as none. -/
namespace TacBench.CommandLine

structure Switch (κ : Type) where
  key : κ
  spellings : List String
  takesValue : Bool := false

structure Grammar (κ : Type) where
  options : List (Switch κ)
  /-- Operands that must be given, in order. -/
  required : List κ := []
  /-- Takes all operands behind the required ones. -/
  further : Option κ := none

/-- A word of a command line. -/
inductive Word (κ : Type) where
  | operand (text : String)
  | divider
  /-- An option as it is spelled, with the text attached to it. -/
  | option (o : Switch κ) (spelling : String) (attached : Option String)
  | unknown

/-- What a word asks for, in order: an option or operand with its texts. -/
abbrev Action (κ : Type) := κ × List String

/-- The texts of an action as a value: one stands for itself, none or several are a list. -/
def valueOf : List String → Json
  | [s] => .str s
  | ss => .strings ss

namespace Word

variable {κ : Type}

def isOption : Word κ → Bool
  | .option .. | .unknown => true
  | _ => false

def isDivider : Word κ → Bool
  | .divider => true
  | _ => false

def text : Word κ → String
  | .operand text => text
  | .divider => "--"
  | _ => ""

end Word

/-- Negative numbers are operands. -/
def isNegativeNumber (word : String) : Bool :=
  match word.toList with
  | '-' :: digits =>
    let digits := if digits.getLast? = some '\n' then digits.dropLast else digits
    match digits.dropWhile Text.isDecimal with
    | [] => !digits.isEmpty
    | '.' :: fraction => !fraction.isEmpty && fraction.all Text.isDecimal
    | _ => false
  | _ => false

/-- The parts of a word around its first equals sign. -/
def splitEquals (word : String) : String × Option String :=
  let cs := word.toList
  match cs.dropWhile (· != '=') with
  | '=' :: value => (String.ofList (cs.takeWhile (· != '=')), some (String.ofList value))
  | _ => (word, none)

namespace Grammar

variable {κ : Type}

/-- Every spelling with its option. -/
def spellings (g : Grammar κ) : List (String × Switch κ) :=
  g.options.flatMap fun o => o.spellings.map fun s => (s, o)

def find? (g : Grammar κ) (spelling : String) : Option (Switch κ) :=
  (g.spellings.find? (·.1 = spelling)).map (·.2)

/-- The options that an incomplete spelling can mean. -/
def readings (g : Grammar κ) (word : String) : List (Word κ) :=
  match word.toList with
  | '-' :: '-' :: _ =>
    let (start, value) := splitEquals word
    (g.spellings.filter fun (s, _) => start.toList.isPrefixOf s.toList).map fun (s, o) =>
      .option o s value
  | '-' :: c :: rest =>
    g.spellings.filterMap fun (s, o) =>
      if s.toList = ['-', c] then some (.option o s (some (String.ofList rest)))
      else if word.toList.isPrefixOf s.toList then some (.option o s none)
      else none
  | _ => []

/-- The meaning of a word before any `--`, unless it is ambiguous. -/
def word? (g : Grammar κ) (word : String) : Option (Word κ) :=
  if word.toList.head? != some '-' then some (.operand word)
  else if let some o := g.find? word then some (.option o word none)
  else if word = "-" then some (.operand word)
  else
    let (start, value) := splitEquals word
    match value, g.find? start with
    | some v, some o => some (.option o start (some v))
    | _, _ =>
      match g.readings word with
      | [w] => some w
      | [] =>
        if isNegativeNumber word || word.toList.contains ' ' then some (.operand word)
        else some .unknown
      | _ => none

def words? (g : Grammar κ) : List String → Option (List (Word κ))
  | [] => some []
  | w :: rest =>
    if w = "--" then some (.divider :: rest.map .operand)
    else do return (← g.word? w) :: (← g.words? rest)

/-- What an option word comes to. -/
structure Taken (κ : Type) where
  actions : List (Action κ) := []
  /-- An option that takes the next word as its value. -/
  pending : Option κ := none

def Taken.after (key : κ) (t : Taken κ) : Taken κ := { t with actions := (key, []) :: t.actions }

/-- An option on its own. -/
def plain (o : Switch κ) : Taken κ :=
  if o.takesValue then { pending := some o.key } else { actions := [(o.key, [])] }

/-- An option with a value attached to it. -/
def valued (o : Switch κ) (value : List Char) : Taken κ :=
  { actions := [(o.key, [String.ofList value].filter (· != "--"))] }

/-- An option with text attached to it: its value, or the letters of further short options. -/
def joined? (g : Grammar κ) (o : Switch κ) (long : Bool) : List Char → Option (Taken κ)
  | [] => if o.takesValue then some (valued o []) else none
  | c :: rest =>
    if o.takesValue then some (valued o (c :: rest))
    else if long then none
    else match g.find? (String.ofList ['-', c]), rest with
      | none, _ => none
      | some next, [] => some ((plain next).after o.key)
      | some next, d :: more => (g.joined? next false (d :: more)).map (·.after o.key)

def taken? (g : Grammar κ) (o : Switch κ) (spelling : String) (attached : Option String) :
    Option (Taken κ) :=
  match attached with
  | none => some (plain o)
  | some text => g.joined? o ("--".toList.isPrefixOf spelling.toList) text.toList

/-- How far the reading of a command line has come. -/
structure Progress (κ : Type) where
  actions : List (Action κ) := []
  required : List κ
  further : Option κ
  extra : Bool := false

/-- The number of words that one operand takes: itself and dividers around it. -/
def operandLength? (ws : List (Word κ)) : Option Nat :=
  let before := (ws.takeWhile Word.isDivider).length
  match ws.drop before with
  | .operand _ :: rest => some (before + 1 + (rest.takeWhile Word.isDivider).length)
  | _ => none

/-- The texts of operand words without the divider. -/
def operandTexts (ws : List (Word κ)) : List String := (ws.map Word.text).erase "--"

/-- Takes as many operands as there are in front, and tells how many words they take. -/
def takeOperands (actions : List (Action κ)) (further : Option κ) (extra : Bool) :
    List κ → List (Word κ) → Progress κ × Nat
  | [], ws =>
    match further with
    | none => (⟨actions, [], none, extra⟩, 0)
    | some k =>
      let n := (ws.takeWhile (!·.isOption)).length
      (⟨actions ++ [(k, operandTexts (ws.take n))], [], none, extra⟩, n)
  | k :: ks, ws =>
    match operandLength? ws with
    | none => (⟨actions, k :: ks, further, extra⟩, 0)
    | some n =>
      let (p, m) := takeOperands (actions ++ [(k, operandTexts (ws.take n))]) further extra
        ks (ws.drop n)
      (p, n + m)

def Progress.operands (p : Progress κ) (ws : List (Word κ)) : Progress κ × Nat :=
  takeOperands p.actions p.further p.extra p.required ws

/-- What a command line asks for, up to the first word that is wrong, and whether all is right. -/
structure Reading (κ : Type) where
  actions : List (Action κ)
  accepted : Bool

def Progress.finish (p : Progress κ) : Reading κ := ⟨p.actions, !p.extra && p.required.isEmpty⟩

/-- Reads words; `fuel` bounds their number. -/
def readWords (g : Grammar κ) : Nat → Progress κ → List (Word κ) → Reading κ
  | 0, p, _ => ⟨p.actions, false⟩
  | fuel + 1, p, ws =>
    if !ws.any Word.isOption then
      let (p, n) := p.operands ws
      { p with extra := p.extra || n < ws.length : Progress κ }.finish
    else match ws with
      | [] => p.finish
      | .unknown :: rest => g.readWords fuel { p with extra := true } rest
      | .option o spelling attached :: rest =>
        match g.taken? o spelling attached with
        | none => ⟨p.actions, false⟩
        | some t =>
          let actions := p.actions ++ t.actions
          match t.pending, rest with
          | none, _ => g.readWords fuel { p with actions } rest
          | some k, .operand v :: rest =>
            g.readWords fuel { p with actions := actions ++ [(k, [v])] } rest
          | some _, _ => ⟨p.actions, false⟩
      | ws =>
        let (p, n) := p.operands ws
        if n = 0 then g.readWords fuel { p with extra := true } (ws.dropWhile (!·.isOption))
        else g.readWords fuel p (ws.drop n)

def read (g : Grammar κ) (arguments : List String) : Reading κ :=
  match g.words? arguments with
  | none => ⟨[], false⟩
  | some ws => g.readWords (ws.length + 1) { required := g.required, further := g.further } ws

/-- Carries out the actions of a command line. The error is the exit code with which the program
ends before its work; a command line that is wrong ends it with 2. -/
def carryOut {α : Type} (g : Grammar κ) (step : α → Action κ → Except Nat α) (start : α)
    (arguments : List String) : Except Nat α := do
  let r := g.read arguments
  let result ← r.actions.foldlM step start
  if r.accepted then return result else throw 2

end Grammar
end TacBench.CommandLine
