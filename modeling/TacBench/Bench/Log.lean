import TacBench.Json.Typed
import TacBench.Text.Replace

/-! The log of a test run. What belongs to one test case is held back until the case has ended, and
is then shown if the case failed or the log is verbose. Without colors the codes of all styles are
taken out of whatever is logged. -/
namespace TacBench.Bench

inductive Style where
  | blue
  | green
  | warning
  | header
  | fail
  | bold
  | underline
  | reset
  deriving DecidableEq, Repr

def Style.code : Style → String
  | .blue => "\x1b[94m"
  | .green => "\x1b[32m"
  | .warning => "\x1b[93m"
  | .header => "\x1b[95m"
  | .fail => "\x1b[91m"
  | .bold => "\x1b[1m"
  | .underline => "\x1b[4m"
  | .reset => "\x1b[0m"

def Style.all : List Style :=
  [.blue, .green, .warning, .header, .fail, .bold, .underline, .reset]

/-- Takes out the codes of one style after the other. -/
def withoutStyles (s : Text) : Text :=
  Style.all.foldl (fun s style => Text.replace style.code [] s) s

structure Log where
  colors : Bool := false
  verbose : Bool := false
  /-- How many marks stand on a line of the results. -/
  width : Int := 120
  /-- What has been logged of the current test case. -/
  held : Option (List Text) := none
  success : Bool := false
  skipped : Bool := false
  /-- Everything shown, newest first. -/
  shown : List Text := []
  deriving Repr

/-- How a run ended. -/
inductive Verdict where
  | noTests
  | passed
  | failed
  deriving DecidableEq, Repr

namespace Log

def text (l : Log) : Text := l.shown.reverse.flatten

def emit (l : Log) (piece : Text) : Log :=
  match l.held with
  | some pieces => { l with held := some (pieces ++ [piece]) }
  | none => { l with shown := piece :: l.shown }

/-- Logs a text behind tabs; the line may stay open. -/
def put (l : Log) (tabs : Nat) (text : Text) (ends : Bool) : Log :=
  let l := l.emit (List.replicate tabs (.char '\t'))
  let l := l.emit (if l.colors then text else withoutStyles text)
  let l := if l.colors then l.emit Style.reset.code else l
  if ends then l.emit "\n" else l

def styled (styles : List Style) (text : Text) : Text :=
  String.join (styles.map Style.code) ++ text

def line (l : Log) (styles : List Style) (text : Text) : Log := l.put 0 (styled styles text) true

def piece (l : Log) (styles : List Style) (text : Text) : Log := l.put 0 (styled styles text) false

def beginSection (l : Log) (name : Text) : Log := l.line [.blue, .underline] (name ++ ":")

/-- Holds back what is logged from now on. -/
def hold (l : Log) : Log := { l with held := some [] }

/-- A name in three columns at least: numbers stand at the right and other values have no
columns. -/
def columns? : Json → Option Text
  | .str s => some (Text.padded 3 s)
  | .bool b => some (Text.rightAligned 3 (if b then "1" else "0"))
  | .int n => some (Text.rightAligned 3 (toString n))
  | .float x => some (Text.rightAligned 3 x.text)
  | _ => none

/-- Begins a test case with its name in columns. -/
def beginCase (l : Log) (name info : Text) : Log :=
  l.hold.put 1 (styled [.bold] (name ++ info ++ ": ")) false

def failCase (l : Log) (result : Text) : Log :=
  { l with success := false }.piece [.bold, .warning] (" × " ++ result)

def passStage (l : Log) : Log := { l with success := true }.piece [.green, .bold] "√"

def warn (l : Log) (text : Text) : Log := l.line [.fail, .bold] ("WARNING: " ++ text)

def warnInLine (l : Log) (text : Text) : Log := l.piece [.fail, .bold] ("WARNING: " ++ text)

/-- Shows what was held back if it matters. -/
def endCase (l : Log) : Log :=
  let l := l.line [] []
  let shows := l.verbose || (!l.success && !l.skipped)
  { l with held := none, shown := if shows then (l.held.getD []).reverse ++ l.shown else l.shown }

/-- A price of zero leaves its place empty. A reference that is another price is warned about. -/
def price (l : Log) (instructions operands : Int) (reference : Json) : Log :=
  let total := operands + instructions
  let shown := if total = 0 then "" else toString total
  let l := l.piece [.blue] s!" {shown} ({instructions}+{operands}) "
  if reference.toValue.same (.int total) then l
  else
    l.warnInLine (s!"Computed price {total} does not matched price from reference interpreter " ++
      reference.text ++ ", please contact maintainers.")

/-- The mark of a test: passed, failed or skipped. -/
def mark : Option Bool → Text
  | some true => styled [.green] "."
  | some false => styled [.fail] "×"
  | none => styled [.blue] "_"

/-- The marks in order, with a line break behind each mark whose number the width divides. -/
def marks (width : Int) (outcomes : List (Option Bool)) : Text :=
  (outcomes.zipIdx 1).flatMap fun (o, i) =>
    mark o ++ if (i : Int) % width = 0 then [.char '\n'] else []

/-- Passed tests in percent of those that ran. -/
def share (passed ran : Nat) : String :=
  ((Binary64.div (.ofInt passed) (.ofInt ran)).mul (.ofInt 100)).threePlaces

/-- Sums up a run. Nothing can be summed up when no test ran or the lines have no width. -/
def results? (l : Log) (outcomes : List (Option Bool)) : Option (Verdict × Log) :=
  if outcomes.isEmpty then
    some (.noTests, l.line [.underline, .blue, .warning] "No tests found.")
  else
    let passed := outcomes.count (some true)
    let ran := outcomes.length - outcomes.count none
    if ran = 0 ∨ l.width = 0 then none
    else
      let share := share passed ran
      let text := styled [.underline, .bold] "RESULTS:" ++ styled [.reset, .bold] s!" {share}%" ++
        styled [.reset] s!" ({passed}/{ran})\n" ++ styled [.reset, .bold] (marks l.width outcomes)
      some (if passed = outcomes.length then .passed else .failed, l.put 0 text true)

end Log
end TacBench.Bench
