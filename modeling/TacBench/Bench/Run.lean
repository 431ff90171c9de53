import TacBench.Bench.Report
import TacBench.Code.Error
import TacBench.Text.RawEscape

/-! A test run among its surroundings: files, a log, a server, a keyboard and the programs it
starts. Answers of the surroundings are given in advance, and what is asked of them is kept. -/
namespace TacBench.Bench

/-- What a server answers. -/
inductive Reply where
  | response (status : Int) (phrase : String) (body : List UInt8)
  | unreachable (reason : String)
  deriving DecidableEq, Repr

structure Request where
  url : String
  body : Option Json
  deriving Repr

/-- How a program behaves that is started. -/
inductive Launch where
  | ended (stdout stderr : List UInt8) (exit : Int)
  | timeout
  | refused (text : String)
  /-- It runs, but cannot be waited for. -/
  | unwaited (text : String)
  deriving DecidableEq, Repr

/-- What the surroundings allow. -/
structure Platform where
  /-- A reply whose status does not tell of success is a fault. -/
  checksReplies : Bool := true
  /-- A timeout that is not the length of a time is a fault. -/
  checksTimeouts : Bool := true
  /-- How many lists and dictionaries of a JSON text may lie in each other. -/
  nesting : Nat
  deriving DecidableEq, Repr

structure Started where
  command : List String
  /-- The code file, by its content. -/
  code : Option String := none
  /-- The input and the timeout, once they have been handed over. -/
  input : Option (String × Json) := none
  killed : Bool := false
  deriving Repr

/-- What is uploaded of a test, as it is sent. -/
structure Price where
  sectionName : String
  name : Json
  operands : Json
  instructions : Json
  deriving Repr

structure Uploader where
  host : String
  tokenFile : String
  /-- Whether the server is ready, in its own words. -/
  connected : Json := .bool false
  token : Option Text := none
  /-- The newest version, as the server names it. -/
  version : Json := .null
  prices : List Price := []
  deriving Repr

structure Run where
  platform : Platform
  files : Files.Tree
  /-- The time that is written into logs. -/
  now : String
  log : Log
  uploader : Uploader
  replies : List Reply := []
  typed : List String := []
  launches : List Launch := []
  /-- Files that may be started. -/
  executables : List String := []
  requests : List Request := []
  prompts : List String := []
  started : List Started := []
  reports : List Report := []
  deriving Repr

inductive Fault where
  | load (f : LoadFault)
  | file (f : Files.Fault)
  | report (f : ReportFault)
  /-- A program that cannot be started, or a timeout that is not a positive number. -/
  | options
  | address (url : String)
  | unreachable (reason : String)
  /-- The server answers, but not with success. -/
  | http (status : Int) (phrase : String)
  | replyBytes (f : Utf8.Fault)
  | reply (body : String) (f : Json.Fault)
  /-- An entry is asked of a reply that has none. -/
  | replyKind (kind : String)
  | inputEnded
  | tokenKind (kind : String)
  /-- A text that has no bytes. -/
  | encoding (f : Utf8.HalfFault)
  /-- A message that cannot be made. -/
  | value (f : Value.Fault)
  | timedOut
  | refused (text : String)
  | unwaited (text : String)
  /-- A timeout that is no number. -/
  | timeoutKind (kind : String)
  /-- A number that is no length of time. -/
  | timeoutValue (f : Value.Fault)
  | inputKind
  | output (f : RawEscape.Fault)
  | noShare
  deriving DecidableEq, Repr

def ReportFault.message : ReportFault → String
  | .extension i k => s!"sequence item {i}: expected str instance, {k} found"
  | .notText k method => s!"'{k}' object has no attribute '{method}'"
  | .encoding f => f.message

def Fault.message : Fault → String
  | .load (.mismatch m) => m.message
  | .load f => f.contentMessage?.getD ""
  | .file f => f.message
  | .report f => f.message
  | .options | .timedOut => ""
  | .address url =>
    let url := Text.quoted url
    s!"unknown url type: {url}"
  | .unreachable reason => s!"<urlopen error {reason}>"
  | .http status phrase => s!"HTTP Error {status}: {phrase}"
  | .replyBytes f => f.message
  | .reply body f => f.message body.toList
  | .replyKind k => s!"'{k}' object has no attribute 'get'"
  | .inputEnded => "EOF when reading a line"
  | .tokenKind k => s!"write() argument must be str, not {k}"
  | .encoding f => f.message
  | .value f => f.message
  | .refused text | .unwaited text => text
  | .timeoutKind k => s!"unsupported operand type(s) for +: 'float' and '{k}'"
  | .timeoutValue f => f.message
  | .inputKind => "encoding without a string argument"
  | .output f => f.message
  | .noShare => "float division by zero"

namespace Platform

def passes (p : Platform) (status : Int) : Bool :=
  !p.checksReplies || (200 ≤ status && status < 300)

/-- What comes of waiting for a program, if that does not depend on the program. A time that has
passed already is over at once. -/
def waitFault? (p : Platform) (timeout : Json) : Option Fault :=
  if !p.checksTimeouts then none
  else match timeout with
    | .null | .bool _ => none
    | .int n =>
      if (Binary64.ofInt? n).isNone then some (.timeoutValue .floatRange)
      else if n < 0 then some .timedOut else none
    | .float .nan => some (.timeoutValue .undefinedInteger)
    | .float (.infinite negative) =>
      some (if negative then .timedOut else .timeoutValue .infiniteInteger)
    | .float (.finite negative units) =>
      if negative && units != 0 then some .timedOut else none
    | j => some (.timeoutKind j.kindName)

end Platform

/-- The status of a reply and the data in it. -/
def Reply.read (p : Platform) : Reply → Except Fault (Int × Json)
  | .unreachable reason => .error (.unreachable reason)
  | .response status phrase body =>
    if !p.passes status then .error (.http status phrase)
    else match Utf8.decode body with
      | .error f => .error (.replyBytes f)
      | .ok text =>
        match Json.parse p.nesting text.toList with
        | .ok j => .ok (status, j)
        | .error f => .error (.reply text f)

/-- The input of a program is a text that has bytes. -/
def inputText : Json → Except Fault String
  | .str text =>
    match Utf8.encodeText text with
    | .ok _ => .ok text.shown
    | .error f => .error (.encoding f)
  | _ => .error .inputKind

def outputText (bytes : List UInt8) : Except Fault Text :=
  match RawEscape.decode bytes with
  | .ok s => .ok s
  | .error f => .error (.output f)

/-- Hands a program its input and waits for it. -/
def Platform.awaits (p : Platform) (input timeout : Json) : Except Fault Unit := do
  discard (inputText input)
  if let some f := p.waitFault? timeout then throw f

/-- What comes of a program that is started: its two outputs and its exit code. -/
def Launch.result (p : Platform) (input timeout : Json) : Launch → Except Fault (Text × Text × Int)
  | .refused text => .error (.refused text)
  | .unwaited text => do
    p.awaits input timeout
    throw (.unwaited text)
  | .timeout => do
    p.awaits input timeout
    throw .timedOut
  | .ended stdout stderr exit => do
    p.awaits input timeout
    return (← outputText stdout, ← outputText stderr, exit)

abbrev Work := EStateM Fault Run

def ofExcept {α : Type} : Except Fault α → Work α
  | .ok a => pure a
  | .error f => throw f

/-- Changes the log. -/
def logging (f : Log → Log) : Work Unit := modify fun r => { r with log := f r.log }

def uploaderNow : Work Uploader := return (← get).uploader

def setUploader (f : Uploader → Uploader) : Work Unit :=
  modify fun r => { r with uploader := f r.uploader }

def ofFile {α : Type} (e : Except Files.Fault α) : Work α :=
  match e with
  | .ok a => pure a
  | .error f => throw (.file f)

/-- Loads with the files as they are, and logs the warnings. -/
def loading {α : Type} (l : Files.Tree → Loading α) : Work α := do
  let (result, ws) := match (l (← get).files).run [] with
    | .ok a ws => (Except.ok a, ws)
    | .error f ws => (.error f, ws)
  ws.reverse.forM fun w => logging (·.warn w.message)
  match result with
  | .ok a => pure a
  | .error f => throw (.load f)

end TacBench.Bench
