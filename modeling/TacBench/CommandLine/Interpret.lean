import TacBench.CommandLine.Grammar
import TacBench.Files.Tree
import TacBench.Machine.Run
import TacBench.Text.Lines

/-! The command that runs a program from a file. -/
namespace TacBench.CommandLine.Interpret

inductive Key where
  | help
  | file
  deriving DecidableEq, Repr

def grammar : Grammar Key :=
  { options := [⟨.help, ["-h", "--help"], false⟩], required := [.file] }

/-- The file that a command line names, or the exit code with which the command ends. -/
def file (arguments : List String) : Except Nat String :=
  grammar.carryOut (fun path action =>
    match action with
    | (.help, _) => .error 0
    | (.file, texts) => .ok (texts.head?.getD path)) "" arguments

inductive ReadFault where
  | file (f : Files.Fault)
  | encoding (f : Utf8.Fault)

/-- The message about a file that cannot be read. -/
def unreadable (path cause : String) : String := s!"Cannot load code from file {path} due {cause}."

def ReadFault.message (path : String) : ReadFault → String
  | .file f => unreadable path f.message
  | .encoding f => unreadable path f.message

/-- The code in the bytes of a file. -/
def code (bytes : List UInt8) : Except ReadFault String :=
  match Utf8.decode bytes with
  | .ok text => .ok (String.ofList (Text.unifyBreaks text.toList))
  | .error f => .error (.encoding f)

inductive Result where
  | exit (code : Nat)
  /-- The file cannot be read. -/
  | unreadable (message : String)
  | rejected (f : Code.LoadFault)
  | ended (outcome : Machine.Outcome) (m : Machine)

def codeIn (files : Files.Tree) (path : String) : Except ReadFault String :=
  match files.read path with
  | .ok bytes => code bytes
  | .error f => .error (.file f)

def run (fuel : Nat) (files : Files.Tree) (arguments : List String) (input : String) : Result :=
  match file arguments with
  | .error code => .exit code
  | .ok path =>
    match codeIn files path with
    | .error f => .unreadable (f.message path)
    | .ok text =>
      match Program.load text with
      | .error f => .rejected f
      | .ok p =>
        let (outcome, m) := Machine.run p fuel (p.start input none)
        .ended outcome m

end TacBench.CommandLine.Interpret
