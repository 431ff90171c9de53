import TacBench.Bench.Wildcard
import TacBench.Files.Glob
import TacBench.Json.Parse
import TacBench.Text.Blank
import TacBench.Text.Lines
import TacBench.Value.Fault

/-! Test cases and where they come from: the description of a section in a JSON file, and files
named for the test. A description may hold any JSON; what is made of it is checked when it is
used. -/
namespace TacBench.Bench

structure Case where
  name : Text
  code : Json
  stdin : Json
  stdout : Json
  compilerExit : Int
  interpreterExit : Int
  info : Json
  directory : String
  extensions : List Value
  timeout : Json
  deriving Repr

/-- An entry of the wrong kind. -/
inductive Mismatch where
  | notIterable (kind : String)
  | notSearchable (kind : String)
  | notElement (kind : String)
  | name (kind : String)
  | integer (kind : String)
  deriving DecidableEq, Repr

def Mismatch.message : Mismatch → String
  | .notIterable k => s!"'{k}' object is not iterable"
  | .notSearchable k => s!"argument of type '{k}' is not iterable"
  | .notElement k => s!"unhashable type: '{k}'"
  | .name k => s!"sequence item 0: expected str instance, {k} found"
  | .integer k =>
    s!"int() argument must be a string, a bytes-like object or a real number, not '{k}'"

inductive LoadFault where
  | mismatch (m : Mismatch)
  /-- An entry is asked of something that has none. -/
  | noEntries
  /-- Code that is not a text is read as one. -/
  | notText
  | noDirectory
  | noCodeFile
  | integerText (f : Integer.TextFault) (text : Text)
  /-- No file can have the name. -/
  | fileName
  | undefinedInteger
  | infiniteInteger
  | encoding (f : Utf8.Fault)
  | path (f : Files.Fault)
  | json (f : Json.Fault)
  deriving DecidableEq, Repr

inductive Warning where
  | wildcard (text : String)
  | json (file message : String)
  | redefined (name : Text) (file : String)
  | noCode (name : Text)
  | description (m : Mismatch)
  | file (path message : String)
  | conflict (names : List Text)
  deriving DecidableEq, Repr

def Warning.message : Warning → Text
  | .wildcard s => s!"Invalid wildcard {s}, skipping."
  | .json path m => s!"File {path} is not valid json to load ({m})."
  | .redefined name path => "Redefined test " ++ name ++ s!" in file {path}, skipping."
  | .noCode name => "Test " ++ name ++ " has not defined code, skipping."
  | .description m =>
    let m := m.message
    s!"Cannot load test cases: {m}."
  | .file path m => s!"Unable to load file {path}: {m}"
  | .conflict names => "Conflicting test case names: " ++ List.intercalate ", " names ++ "."

/-- Loading collects warnings, the newest first. -/
abbrev Loading := EStateM LoadFault (List Warning)

def warn (w : Warning) : Loading Unit := modify (w :: ·)

/-- The faults of a file's content, with their wording; they cost no more than that file. -/
def LoadFault.contentMessage? : LoadFault → Option String
  | .integerText f text => some (Value.integerTextMessage text f)
  | .encoding f => some f.message
  | .path f => some f.message
  | _ => none

/-- The text of a file, or `none` if there is no file to read. -/
def fileText (t : Files.Tree) (path : String) : Loading (Option String) :=
  match t.read path with
  | .ok bytes =>
    match Utf8.decode bytes with
    | .ok s => pure (some s)
    | .error f => throw (.encoding f)
  | .error f => if f.cause = .nullCharacter then throw (.path f) else pure none

/-- The name that a file can have for a text, or `none` if its bytes are those of no text. -/
def fileName (name : Text) : Loading (Option String) :=
  match name.mapM Utf8.nameBytes? with
  | some bytes => pure (Utf8.decode bytes.flatten).toOption
  | none => throw .fileName

/-- A file of a test, by the kind of what it holds. A file that is missing counts as empty. -/
def caseFile (t : Files.Tree) (dir : String) (name : Text) (kind : String) : Loading Text := do
  match ← fileName name with
  | none => return []
  | some name =>
    let text ← fileText t (Files.join dir (name ++ "." ++ kind))
    return Text.ofChars (Text.unifyBreaks (text.getD "").toList)

/-- The comment on the first line of code that begins with one, if the line ends. -/
def codeInfo (code : Text) : Text :=
  if code.contains (.char '\n') && (Text.trim code).head? == some (.char '\'') then
    Text.trim ((code.takeWhile (· != .char '\n')).dropWhile (· == .char '\''))
  else []

/-- Code that is not a text has no comment; a list is searched for a line break all the same. -/
def infoOf : Json → Loading Text
  | .str s => pure (codeInfo s)
  | .list xs =>
    if xs.any fun x => match x with | .str s => s == "\n" | _ => false then throw .notText
      else pure []
  | .dict es => if es.any fun e => e.1 == "\n" then throw .notText else pure []
  | j => throw (.mismatch (.notSearchable j.kindName))

/-- The integer that a description or a file gives. -/
def integerOf : Json → Loading Int
  | .bool b => pure (if b then 1 else 0)
  | .int n => pure n
  | .float .nan => throw .undefinedInteger
  | .float (.infinite _) => throw .infiniteInteger
  | .float (.finite s u) => pure (Binary64.truncate (Binary64.signed s u))
  | .str s =>
    match Integer.ofText s.seen with
    | .ok n => pure n
    | .error f => throw (.integerText f s)
  | j => throw (.mismatch (.integer j.kindName))

/-- What a value yields when it is gone through. -/
def elements : Json → Loading (List Json)
  | .list xs => pure xs
  | .str s => pure (s.map fun c => .str [c])
  | .dict es => pure (es.map fun e => .str e.1)
  | j => throw (.mismatch (.notIterable j.kindName))

/-- The elements of an entry, of which there are none if there is no entry. -/
def elementsOf (entries : List (Text × Json)) (key : Text) : Loading (List Json) :=
  match Dictionary.find? entries key with
  | some j => elements j
  | none => pure []

def elementOf : Json → Loading Value
  | .null => pure .none
  | .bool b => pure (.bool b)
  | .int n => pure (.int n)
  | .float x => pure (.float x)
  | .str s => pure (.str s)
  | j => throw (.mismatch (.notElement j.kindName))

/-- The elements without repetition. -/
def setOf (js : List Json) : Loading (List Value) := do
  let vs ← js.mapM elementOf
  return vs.foldl (fun found v => if found.any v.same then found else found ++ [v]) []

/-- Values in order: numbers by their place on the line, texts by code points. Nothing orders values
of which some are texts and some are not, or a missing one beside others. -/
def sorted? (vs : List Value) : Option (List Value) :=
  let before (a b : Value) : Bool :=
    match a, b with
    | .str s, .str t => !(t < s)
    | a, b => match a.place?, b.place? with
      | some p, some q => !Binary64.placeBefore q p
      | _, _ => true
  if vs.length ≤ 1 || vs.all (·.isNumber) || vs.all (·.kind = .str) then some (vs.mergeSort before)
  else none

/-- The first that counts as given, read only when it is needed. -/
def orElse (j : Json) (other : Loading Json) : Loading Json :=
  if j.holds then pure j else other

def nameText : Json → Loading Text
  | .str s => pure s
  | j => throw (.mismatch (.name j.kindName))

end TacBench.Bench
