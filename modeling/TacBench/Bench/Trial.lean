import TacBench.Bench.Run
import TacBench.Bench.Suite
import TacBench.Bench.Upload
import TacBench.Machine.Run
import TacBench.Text.Casing

/-! One test: the compiler, the interpreter, the comparison of its output, and the price of the
compiled program. The first stage that disagrees with the test ends it. -/
namespace TacBench.Bench

structure Options where
  compiler : String
  interpreter : String
  noInterpreter : Bool
  timeout : Json
  logDirectory : Option String
  testsDirectory : String
  wildcards : List String
  extensionsFile : Option String
  noColors : Bool
  verbose : Bool
  /-- Outputs are logged in full instead of as a difference. -/
  noDifference : Bool
  tokenFile : Option String
  host : String
  deriving Repr

structure Runner where
  options : Options
  suite : Suite
  extensions : List String
  /-- The file in which the extensions were found, if it had to be looked for. -/
  extensionsFrom : Option String
  logDirectory : String
  deriving Repr

/-- Starts a program and hands it its input: what it writes, and its exit code. A program that is
not waited for to the end of its time is not stopped. -/
def launch (command : List String) (code : Option String) (input timeout : Json) :
    Work (Text × Text × Int) := do
  let r ← get
  let behaviour := r.launches.head?.getD (.ended [] [] 0)
  let result := behaviour.result r.platform input timeout
  let handed := (inputText input).toOption.map fun text => (text, timeout)
  let started : Started := match result with
    | .ok _ | .error (.output _) => { command, code, input := handed }
    | .error .timedOut => { command, code, input := handed, killed := true }
    | .error _ => { command }
  set { r with launches := r.launches.drop 1, started := r.started ++ [started] }
  ofExcept result

/-- Starts an interpreter on a program, which is first written to a file. -/
def interpret (interpreter : String) (program : Text) (input timeout : Json) :
    Work (Text × Text × Int) := do
  let code := program ++ "\nGROOT"
  match Utf8.encodeText code with
  | .ok _ => launch [interpreter, "-v", "code_temp"] (some code.shown) input timeout
  | .error f => throw (.encoding f)

/-- The price in parentheses on the last line. Where a parenthesis is missing, the number is looked
for from the beginning, or up to the last character. -/
def referencePrice? (stderr : Text) : Option Int := do
  let line ← (Text.lines stderr.seen).getLast?
  let start := match line.idxOf? '(' with
    | some i => i + 1
    | none => 0
  let stop := (line.idxOf? ')').getD (line.length - 1)
  (Integer.ofText ((line.take stop).drop start)).toOption

/-- Runs a compiled program to learn its price. The error is the message about a program that does
not end well, which may fail itself. -/
def priceOf (fuel : Nat) (program : Text) (stdin : Json) :
    Except (Except Value.Fault Text) Machine :=
  match stdin with
  | .str stdin =>
    match Program.load program.shown with
    | .error f => .error (.ok f.message)
    | .ok p =>
      match Machine.run p fuel (p.start stdin.shown none) with
      | (.failed f, _) => .error f.message
      | (_, m) => .ok m
  | j => .error (.ok ("initial_value must be str or None, not " ++ j.kindName))

/-- The comment on a test behind its name. -/
def shownInfo (info : Json) : Except ReportFault Text := do
  if !info.holds then return []
  let s := Text.trim (← textFor "strip" info)
  let s := (s.reverse.dropWhile (· == .char '.')).reverse
  return " (" ++ Text.mapRuns Text.lower s ++ ")"

def ofReport {α : Type} (e : Except ReportFault α) : Work α :=
  match e with
  | .ok a => pure a
  | .error f => throw (.report f)

/-- The extensions of a test that are not activated. -/
def missing (r : Runner) (c : Case) : List Value :=
  c.extensions.filter fun v =>
    match v with
    | .str s => !r.extensions.any fun e => e == s
    | _ => true

namespace Runner

def logFile (r : Runner) (sectionName name : String) : String :=
  Files.join (Files.join r.logDirectory sectionName) (name ++ ".IFJcode17")

/-- Saves the log of a test and closes its part of the run's log. -/
def save (r : Runner) (sectionName : String) (report : Report) : Work Unit := do
  let some name ← loading fun _ => fileName report.test.name | throw (.load .fileName)
  let path := r.logFile sectionName name
  let (content, fault) := report.bytes (← get).now r.options.noDifference r.extensions
  let files ← ofFile ((← get).files.write path content)
  modify fun s => { s with files }
  if let some f := fault then throw (.report f)
  modify fun s => { s with reports := s.reports ++ [report] }
  logging fun l =>
    { l with success := report.success = some true, skipped := report.skipped }.endCase

/-- What the log says about a program that gave no result. -/
def launchFailure (program : String) : Fault → String
  | .timedOut => program ++ " TIMEOUT"
  | f => "FAIL TO RUN " ++ program ++ " (" ++ f.message ++ ")"

def exitFailure (program : String) (expected returned : Int) : String :=
  s!"{program} EXIT CODE expected={expected}, returned={returned}"

/-- Ends a test that does not give what is expected. -/
def failCase (r : Runner) (sectionName : String) (report : Report) (why : Text) : Work Unit := do
  logging (·.failCase why)
  r.save sectionName { report with success := some false }

def passCase (r : Runner) (sectionName : String) (report : Report) : Work Unit :=
  r.save sectionName { report with success := some true }

/-- Ends a test that needs extensions which are not activated. -/
def skipCase (r : Runner) (sectionName : String) (c : Case) (missing : List Value) : Work Unit := do
  let names := List.intercalate ", " (← ofReport (extensionNames missing))
  logging (·.piece [.green]
    (" skipping, required extension(s) " ++ names ++ " is not activated."))
  r.save sectionName { test := c, skipped := true }

/-- Ends a test whose program gave the expected output, with the price of the program if it has
one. -/
def priceCase (r : Runner) (fuel : Nat) (sectionName : String) (c : Case) (report : Report)
    (program : Text) : Work Unit :=
  match priceOf fuel program c.stdin with
  | .error (.error f) => throw (.value f)
  | .error (.ok m) => do
    logging (·.line [.warning] (" (fail: " ++ m ++ ")"))
    r.passCase sectionName report
  | .ok machine => do
    let reference := (report.referencePrice.map Json.int).getD .null
    logging (·.price machine.instructionPrice machine.operandPrice reference)
    Upload.collect
      ⟨Files.baseName c.directory, .str c.name, .int machine.operandPrice,
        .int machine.instructionPrice⟩
    r.passCase sectionName { report with machine := some machine }

/-- Interprets a compiled program and compares what it does with what the test expects. -/
def interpretCase (r : Runner) (fuel : Nat) (sectionName : String) (c : Case) (report : Report)
    (program : Text) : Work Unit := do
  let interpreted ← try
      pure (Except.ok (← interpret r.options.interpreter program c.stdin c.timeout))
    catch f => pure (.error f)
  match interpreted with
  | .error f => r.failCase sectionName report (launchFailure "INTERPRETER" f)
  | .ok (stdout, stderr, exit) =>
    let report :=
      { report with
        interpreterStdout := some stdout, interpreterStderr :=
          some stderr, interpreterExit := some exit,
        referencePrice := referencePrice? stderr }
    if exit ≠ c.interpreterExit then
      r.failCase sectionName report (exitFailure "INTERPRETER" c.interpreterExit exit)
    else if exit ≠ 0 then r.passCase sectionName report
    else
      logging Log.passStage
      let expected := match c.stdout with
        | .str s => s == stdout
        | _ => false
      if !expected then r.failCase sectionName report "STDOUT"
      else
        logging Log.passStage
        r.priceCase fuel sectionName c report program

/-- Compiles the code of a test. A compiler that is expected to fail ends the test. -/
def compileCase (r : Runner) (fuel : Nat) (sectionName : String) (c : Case) : Work Unit := do
  let compiled ← try
      pure (Except.ok (← launch [r.options.compiler] none c.code c.timeout))
    catch f => pure (.error f)
  match compiled with
  | .error f => r.failCase sectionName { test := c } (launchFailure "COMPILER" f)
  | .ok (stdout, stderr, exit) =>
    let report : Report :=
      { test := c, compilerStdout := some stdout, compilerStderr := some stderr,
        compilerExit := some exit }
    if exit ≠ c.compilerExit then
      r.failCase sectionName report (exitFailure "COMPILER" c.compilerExit exit)
    else
      logging Log.passStage
      if exit ≠ 0 || r.options.noInterpreter then r.passCase sectionName report
      else r.interpretCase fuel sectionName c report stdout

/-- Carries out a test. -/
def runCase (r : Runner) (fuel : Nat) (sectionName : String) (c : Case) : Work Unit := do
  let info ← ofReport (shownInfo c.info)
  logging (·.beginCase (Text.padded 3 c.name) info)
  let missing := missing r c
  if !missing.isEmpty then r.skipCase sectionName c missing else r.compileCase fuel sectionName c

end Runner
end TacBench.Bench
