import TacBench.Bench.Trial

/-! A whole test run: its preparation, the tests of all sections, the summary and the upload. -/
namespace TacBench.Bench

/-- The version of this toolkit. -/
def version : String := "1.4.13"

/-- An option that is empty counts as not given. -/
def given (o : Option String) : Option String := o.filter (!·.isEmpty)

def isExecutable (r : Run) (path : String) : Bool :=
  r.files.isFile path &&
    match r.files.locate path with
    | .ok l => r.executables.any fun e => (r.files.locate e).toOption == some l
    | .error _ => false

def isPositive : Json → Bool
  | .float (.finite negative units) => !negative && units != 0
  | .float (.infinite negative) => !negative
  | _ => false

def extensionsName : String := "rozsireni"

/-- Where the extensions are looked for: beside the compiler and in the two directories above. -/
def extensionsPlaces (files : Files.Tree) (compiler : String) : List String :=
  let dir := Files.directory compiler
  [dir, Files.join dir "..", Files.join dir "../.."].map fun d =>
    files.absolute (Files.join d extensionsName)

/-- The words of a text, each once. -/
def distinctWords (s : String) : List String :=
  ((Text.fields s.toList).map String.ofList).eraseDups

/-- The activated extensions, and the file in which they were found by looking for it. -/
def findExtensions (o : Options) : Work (List String × Option String) := do
  let files := (← get).files
  let read (path : String) : Work (List String) := do
    let text ← loading fun t => fileText t path
    return distinctWords (text.getD "")
  match given o.extensionsFile with
  | some path =>
    if files.isFile path then return (← read path, none)
    logging (·.warn s!"File '{path}' is not file or is not readable, assuming none of extensions.")
    return ([], none)
  | none =>
    match (extensionsPlaces files o.compiler).find? files.isFile with
    | some path => return (← read path, some path)
    | none => return ([], none)

/-- Changes the files, unless that cannot be done. -/
def changing (f : Files.Tree → Except Files.Fault Files.Tree) : Work Unit := do
  let files ← ofFile (f (← get).files)
  modify fun r => { r with files }

/-- Removes a file of a directory, unless its path is exactly that of the token. -/
def removeLog (dir token name : String) : Work Unit := do
  let path := Files.join dir name
  if path ≠ token then changing (·.unlink path)

/-- Removes a directory in a directory with all that is in it. -/
def removeLogs (dir name : String) : Work Unit :=
  changing fun t => return t.erase (← t.locate (Files.join dir name))

/-- Clears a directory for new logs: the files in it go, then the directories in it. -/
def clearLogs (dir token : String) : Work Unit := do
  let files := (← get).files
  if let .ok l := files.locate dir then
    let names := files.children l
    (names.filter fun name => files.node? (name :: l) != some .directory).forM (removeLog dir token)
    (names.filter fun name => files.node? (name :: l) == some .directory).forM (removeLogs dir)

namespace Runner

/-- Checks the options and prepares the directory for logs. -/
def prepare (o : Options) : Work Runner := do
  let run ← get
  if !isExecutable run o.compiler then throw .options
  if !o.noInterpreter && !isExecutable run o.interpreter then throw .options
  if !isPositive o.timeout then throw .options
  let suite ← loading fun t => Suite.opened t o.testsDirectory o.timeout o.wildcards
    run.platform.nesting
  let (extensions, extensionsFrom) ← findExtensions o
  logging fun l => { l with colors := l.colors && !o.noColors, verbose := o.verbose }
  let files := (← get).files
  let logDirectory := (given o.logDirectory).getD
    (Files.join (Files.directory (files.absolute o.compiler)) "log")
  let tokenFile := (given o.tokenFile).getD (Files.join logDirectory ".TOKEN")
  setUploader fun _ => { host := o.host, tokenFile }
  if files.exists? logDirectory then clearLogs logDirectory tokenFile
  else changing (·.makeDirectory logDirectory)
  return { options := o, suite, extensions, extensionsFrom, logDirectory }

def welcome (r : Runner) : Work Unit := do
  logging (·.line [.blue, .bold]
    (s!"Welcome to automatic test runner for IFJ17 compiler {version} " ++
      "(https://github.com/thejoeejoee/VUT-FIT-IFJ-2017-tests)."))
  if !r.extensions.isEmpty then
    let names := String.intercalate ", " (Suite.inOrder r.extensions)
    let source := match r.extensionsFrom with
      | some path => " from " ++ path
      | none => ""
    logging (·.line [.green, .bold] s!"Activated extensions: {names}{source}.")
  if r.options.noInterpreter then
    logging (·.line [.warning, .underline, .bold]
      "WARNING: Running without interpreter - without STDOUT check.")

def runSection (r : Runner) (fuel : Nat) (dir : String) : Work Unit := do
  let name := Files.baseName dir
  logging (·.beginSection name)
  let files ← ofFile ((← get).files.makeDirectory (Files.join r.logDirectory name))
  modify fun s => { s with files }
  let cases ← loading fun t => r.suite.load t dir
  cases.forM (r.runCase fuel name)

def runSections (r : Runner) (fuel : Nat) : Work Unit := do
  (← ofFile (r.suite.sections (← get).files)).forM (r.runSection fuel)

/-- Sends the prices, and says so if that does not work. -/
def upload : Work Unit := do
  try
    let reply ← Upload.sendPrices
    if !(← Upload.entry reply "success").holds then
      let m := (← Upload.entry reply "message").text
      logging (·.warn ("Server fail with saving result (" ++ m ++ "), terminating..."))
  catch f =>
    let m := f.message
    logging (·.warn s!"Unable to send reports ({m}), terminating...")

inductive Ending where
  /-- The user is not known to the server. -/
  | unknownUser
  | summed (v : Verdict)
  deriving DecidableEq, Repr

/-- Sums up the tests that were run. -/
def summarize : Work Verdict := do
  let s ← get
  match s.log.results? (s.reports.map (·.success)) with
  | some (v, log) =>
    set { s with log }
    return v
  | none => throw .noShare

/-- Runs the tests, sums them up and sends their prices. -/
def carryOut (r : Runner) (fuel : Nat) : Work Ending := do
  r.runSections fuel
  let verdict ← summarize
  let u ← uploaderNow
  if u.connected.holds then upload else logging (·.warn "Results upload skipped.")
  let newest := match u.version with
    | .str s => s == version
    | _ => false
  if !newest then
    logging (·.warn ("Outdated package version, actual version on PyPI is " ++
      u.version.text ++ "."))
  return .summed verdict

/-- Carries out the run. The fuel bounds each run of a compiled program. -/
def run (r : Runner) (fuel : Nat) : Work Ending := do
  r.welcome
  Upload.checkConnection
  let known ← try
      discard Upload.authenticate
      pure none
    catch f => pure (some f)
  if let some f := known then
    let m := f.message
    logging (·.warn s!"Unable to authenticate user ({m}), terminating...")
    return .unknownUser
  r.carryOut fuel

end Runner
end TacBench.Bench
