import TacBench.Bench.Case
import TacBench.Bench.Log
import TacBench.Bench.OutputLog
import TacBench.Machine.State

/-! What came of a test, and the log file that is saved of it. The file is code again: all but the
compiled program stands in comments. -/
namespace TacBench.Bench

structure Report where
  test : Case
  compilerStdout : Option Text := none
  compilerStderr : Option Text := none
  compilerExit : Option Int := none
  interpreterStdout : Option Text := none
  interpreterStderr : Option Text := none
  interpreterExit : Option Int := none
  /-- The machine on which the compiled program ran to its end. -/
  machine : Option Machine := none
  /-- The price that the reference interpreter names. -/
  referencePrice : Option Int := none
  /-- Not set for a test that was skipped. -/
  success : Option Bool := none
  skipped : Bool := false
  deriving Repr

/-- A part of a test that cannot be put into its log. -/
inductive ReportFault where
  | extension (position : Nat) (kind : String)
  | notText (kind method : String)
  | encoding (f : Utf8.HalfFault)
  deriving DecidableEq, Repr

/-- The texts of extensions, or the first that is none. -/
def extensionNames (vs : List Value) : Except ReportFault (List Text) :=
  vs.zipIdx.mapM fun (v, i) =>
    match v with
    | .str s => .ok s
    | v => .error (.extension i v.kind.name)

/-- The text of a value from which a text operation is asked; one that does not count as given is
empty. -/
def textFor (method : String) (j : Json) : Except ReportFault Text :=
  match j with
  | .str s => .ok s
  | j => if j.holds then .error (.notText j.kindName method) else .ok []

namespace Report

/-- Every further line of a text in a comment begins with a comment sign. -/
def commented (s : Text) : Text := Text.replace "\n" "\n# " s

def exitText : Option Int → String
  | some n => toString n
  | none => "None"

def priceText (r : Report) : String :=
  match r.machine with
  | some m =>
    let total := m.price
    let instructions := m.instructionPrice
    let operands := m.operandPrice
    s!"{total} ({instructions}+{operands})"
  | none => "---"

def referenceText (r : Report) : String :=
  match r.referencePrice with
  | some n => toString n
  | none => "---"

/-- The head of the log. Its lines are fixed; `now` is the time at which it is written. -/
def head (now : String) (noDifference : Bool) (extensions : List String) (r : Report) :
    Except ReportFault Text := do
  let t := r.test
  let required ← extensionNames t.extensions
  let output ← do
    let stdout ← textFor "splitlines" t.stdout
    pure (outputLog noDifference (some stdout) r.interpreterStdout)
  let stdin ← textFor "replace" t.stdin
  let lines : List Text := [
    "# " ++ now,
    "SECTION: " ++ Files.baseName t.directory,
    "TEST: " ++ t.name,
    "INFO: " ++ t.info.text,
    "REQUIRED EXTENSIONS: " ++ List.intercalate ", " required,
    "ACTIVATED EXTENSIONS: " ++ String.intercalate ", " extensions,
    "STATE: " ++ (if r.success = some true then "SUCCESS" else "FAIL"),
    "",
    "COMPILER STDERR:",
    commented (r.compilerStderr.getD []),
    "INTERPRETER STDERR:",
    commented (r.interpreterStderr.getD []),
    output,
    "INTERPRETER STDIN: ",
    commented stdin ++ "\n#",
    "EXPECTED COMPILER EXIT CODE: " ++ toString t.compilerExit,
    "CURRENT COMPILER EXIT CODE: " ++ exitText r.compilerExit,
    "EXPECTED INTERPRETER EXIT CODE: " ++ toString t.interpreterExit,
    "CURRENT INTERPRETER EXIT CODE: " ++ exitText r.interpreterExit,
    "PRICE: " ++ r.priceText,
    "GROOT: " ++ r.referenceText,
    "\n"]
  return List.intercalate "\n# " lines

/-- The numbered lines of the test's code, in comments. -/
def source (code : Text) : Text :=
  List.intercalate "\n" (((Text.pointLines code).zipIdx 1).map fun (line, i) =>
    "# " ++ Text.rightAligned 3 s!" {i}" ++ ": " ++ line)

/-- The compiled program with the number of each line in a comment; empty lines are left out. -/
def listing (program : Text) : Text :=
  let lines := Text.pointLines program
  let count := lines.length
  let kept := (lines.zipIdx 1).filter fun l => !l.1.isEmpty
  let text : Text := List.intercalate "\n" (kept.map fun (line, i) =>
    Text.padded 80 line ++ "# " ++ Text.rightAligned 5 (toString i) ++ s!"/{count}")
  if text.isEmpty then "# ---" else text

def divider : Text := "\n\n########################################\n\n"

/-- The pieces of the log in the order in which they are written, and the fault that ends the
writing, if one does. -/
def pieces (now : String) (noDifference : Bool) (extensions : List String) (r : Report) :
    List Text × Option ReportFault :=
  match r.head now noDifference extensions, r.test.code with
  | .error f, _ => ([], some f)
  | .ok head, .str code =>
    ([head, source code, divider, listing (r.compilerStdout.getD []), "\n\n"], none)
  | .ok head, j => ([head], some (.notText j.kindName "splitlines"))

/-- The bytes of pieces, up to the first that has none. -/
def encoded : List Text → List UInt8 × Option Utf8.HalfFault
  | [] => ([], none)
  | piece :: rest =>
    match Utf8.encodeText piece with
    | .error f => ([], some f)
    | .ok bytes =>
      let (more, f) := encoded rest
      (bytes ++ more, f)

/-- What is written of the log, and the fault that ends the writing. -/
def bytes (now : String) (noDifference : Bool) (extensions : List String) (r : Report) :
    List UInt8 × Option ReportFault :=
  let (pieces, fault) := r.pieces now noDifference extensions
  let (bytes, half) := encoded pieces
  (bytes, (half.map .encoding).or fault)

end Report
end TacBench.Bench
