import TacBench.Bench.Runner
import TacBench.CommandLine.Grammar

/-! The command that runs the tests of a compiler. -/
namespace TacBench.CommandLine.TestRun

inductive Key where
  | help
  | compiler
  | wildcards
  | interpreter
  | extensionsFile
  | verbose
  | noInterpreter
  | testsDirectory
  | logDirectory
  | tokenFile
  | host
  | timeout
  | noColors
  | noDifference
  | version
  deriving DecidableEq, Repr

def grammar : Grammar Key where
  options := [⟨.help, ["-h", "--help"], false⟩,
    ⟨.interpreter, ["-i", "--interpreter"], true⟩,
    ⟨.extensionsFile, ["-e", "--extensions-file"], true⟩,
    ⟨.verbose, ["-v", "--verbose"], false⟩,
    ⟨.noInterpreter, ["--no-interpreter"], false⟩,
    ⟨.testsDirectory, ["-d", "--tests-dir"], true⟩,
    ⟨.logDirectory, ["-l", "--log-dir"], true⟩,
    ⟨.tokenFile, ["-t", "--token-file"], true⟩,
    ⟨.host, ["--benchmark-url-target"], true⟩,
    ⟨.timeout, ["--command-timeout"], true⟩,
    ⟨.noColors, ["--no-colors"], false⟩,
    ⟨.noDifference, ["--no-stdout-diff"], false⟩,
    ⟨.version, ["-V", "--version"], false⟩]
  required := [.compiler]
  further := some .wildcards

/-- The place of the interpreter in the toolkit, for the platforms that have one. -/
def interpreters : Dictionary String String :=
  [("Linux", "ifj2017/bin/linux/ic17int"), ("Darwin", "ifj2017/bin/linux/ic17int"),
    ("Windows", "ifj2017/bin/windows/ic17int.exe")]

def unsupported (platform : String) : String :=
  s!"Actual platform '{platform}' is not supported platform, terminating..."

/-- The directory of the toolkit, seen from the package in it. -/
def home (top : String) : String := Files.join (Files.join top "ifj2017") ".."

def defaultTimeout : Binary64 := (Binary64.ofInt 1).div (Binary64.ofInt 4)

/-- What is chosen for each option and operand, by its name. -/
abbrev Settings := Dictionary String Json

def Key.name : Key → String
  | .help => "help"
  | .compiler => "compiler"
  | .wildcards => "tests"
  | .interpreter => "interpreter"
  | .extensionsFile => "extensions_file"
  | .verbose => "verbose"
  | .noInterpreter => "no_interpreter"
  | .testsDirectory => "tests_dir"
  | .logDirectory => "log_dir"
  | .tokenFile => "token_file"
  | .host => "benchmark_url_target"
  | .timeout => "command_timeout"
  | .noColors => "no_colors"
  | .noDifference => "no_stdout_diff"
  | .version => "version"

namespace Settings

def get (s : Settings) (k : Key) : Json := (s.find? k.name).getD .null

def set (s : Settings) (k : Key) (value : Json) : Settings := s.insert k.name value

/-- What is chosen without a command line. -/
def defaults (top interpreter : String) : Settings :=
  [(.compiler, .null), (.wildcards, .list []),
    (.interpreter, .str (Files.join (home top) interpreter)), (.extensionsFile, .null),
    (.verbose, .bool false), (.noInterpreter, .bool false),
    (.testsDirectory, .str (Files.join (home top) "ifj2017/tests")), (.logDirectory, .null),
    (.tokenFile, .null), (.host, .str "https://ifj.josefkolar.cz"),
    (.timeout, .float defaultTimeout), (.noColors, .bool false), (.noDifference, .bool false)].foldl
      (fun s (k, value) => set s k value) []

/-- The options of a run for which texts are chosen where texts are needed. -/
def options (s : Settings) : Bench.Options :=
  let text (k : Key) : String := (s.get k).textOr ""
  let text? (k : Key) : Option String := (s.get k).text?.map Text.shown
  { compiler := text .compiler, interpreter := text .interpreter
    noInterpreter := (s.get .noInterpreter).holds, timeout := s.get .timeout
    logDirectory := text? .logDirectory, testsDirectory := text .testsDirectory
    wildcards := (s.get .wildcards).elements.map (·.textOr "")
    extensionsFile := text? .extensionsFile, noColors := (s.get .noColors).holds
    verbose := (s.get .verbose).holds, noDifference := (s.get .noDifference).holds
    tokenFile := text? .tokenFile, host := text .host }

end Settings

/-- Takes over what one word of the command line says. -/
def update (s : Settings) (action : Action Key) : Except Nat Settings :=
  let (key, texts) := action
  match key with
  | .help | .version => .error 0
  | .wildcards => .ok (s.set key (.strings texts))
  | .verbose | .noInterpreter | .noColors | .noDifference => .ok (s.set key (.bool true))
  | .timeout =>
    match texts with
    | [text] =>
      match Binary64.ofText? text.toList with
      | some x => .ok (s.set key (.float x))
      | none => .error 2
    | _ => .ok (s.set key (valueOf texts))
  | _ => .ok (s.set key (valueOf texts))

/-- The settings of a command line on a platform, or the exit code with which the command ends. A
platform without an interpreter ends it with a warning. -/
def settings (top platform : String) (arguments : List String) :
    Option String × Except Nat Settings :=
  match interpreters.find? platform with
  | none => (some (unsupported platform), .error 1)
  | some interpreter =>
    (none, grammar.carryOut update (Settings.defaults top interpreter) arguments)

end TacBench.CommandLine.TestRun
