import TacBench.Bench.Case

/-! A suite is a directory of sections, a section a directory of tests. -/
namespace TacBench.Bench

structure Suite where
  directory : String
  /-- The timeout of tests that give none. -/
  timeout : Json
  wildcards : List Wildcard
  /-- How deep descriptions may be nested. -/
  nesting : Nat
  deriving Repr

namespace Suite

/-- Opens a suite; texts that are no wildcard are warned about. -/
def opened (t : Files.Tree) (directory : String) (timeout : Json) (texts : List String)
    (nesting : Nat) : Loading Suite := do
  if !t.isDirectory directory then throw .noDirectory
  let (wildcards, refused) := Wildcard.readAll texts
  refused.forM fun s => warn (.wildcard s)
  return { directory, timeout, wildcards, nesting }

def inOrder {α : Type} [LT α] [DecidableLT α] (xs : List α) : List α :=
  xs.mergeSort fun a b => !decide (b < a)

/-- The directories of the chosen sections. -/
def sections (t : Files.Tree) (s : Suite) : Except Files.Fault (List String) := do
  let names ← t.names s.directory
  return inOrder ((names.filter fun n =>
    t.isDirectory (Files.join s.directory n) && allowed s.wildcards n []).map
      (Files.join s.directory))

def descriptionFile (dir : String) : String := Files.join dir "tests.json"

/-- The description of a section. One that cannot be read counts as empty, with a warning if it is
not JSON. -/
def description (t : Files.Tree) (s : Suite) (dir : String) : Loading Json := do
  let file := descriptionFile dir
  match ← fileText t file with
  | none => return .dict []
  | some text =>
    if text.isEmpty then return .dict []
    match Json.parse s.nesting text.toList with
    | .ok j => return j
    | .error (.malformed cause position) =>
      warn (.json file (Json.Fault.message text.toList (.malformed cause position)))
      return .dict []
    | .error f => throw (.json f)

def entriesOf : Json → Loading (List (Text × Json))
  | .dict es => pure es
  | _ => throw .noEntries

/-- Three digits, with zeros in front. -/
def ordinal (n : Nat) : String :=
  let s := toString n
  String.ofList (List.replicate (3 - s.length) '0') ++ s

/-- Whether a test is chosen. A name that is not a text fits no wildcard with a name. -/
def chooses (s : Suite) (dir : String) (name : Json) : Bool :=
  match name with
  | .str n => allowed s.wildcards (Files.baseName dir) n
  | _ => s.wildcards.isEmpty ||
      s.wildcards.any fun w => w.allowsSection (Files.baseName dir) && w.name == none

/-- The test that entries give under a name, if they give one. -/
def entryCase (t : Files.Tree) (s : Suite) (dir : String) (extensions : List Json)
    (entries : List (Text × Json)) (name : Json) : Loading (Option Case) := do
  let get := Json.field entries
  let file (kind : String) : Loading Json := do
    return .str (← caseFile t dir (← nameText name) kind)
  let code ← orElse (get "code") (file "code")
  if !code.holds && !(get "allow_empty").holds then
    warn (.noCode name.text)
    return none
  let stdin ← orElse (get "stdin") (file "stdin")
  let stdout ← orElse (get "stdout") (file "stdout")
  let exit (key kind : String) : Loading Int := do
    let j ← orElse (get key) (file kind)
    integerOf (if j.holds then j else .int 0)
  let compilerExit ← exit "compiler_exit_code" "cexitcode"
  let interpreterExit ← exit "interpreter_exit_code" "iexitcode"
  let info ← orElse (get "info") do
    orElse (← file "info") do return .str (← infoOf code)
  let extensions ← setOf ((← elementsOf entries "extensions") ++ extensions)
  let timeout := if (get "timeout").holds then get "timeout" else s.timeout
  let name ← nameText name
  return some ⟨name, code, stdin, stdout, compilerExit, interpreterExit, info, dir,
    extensions, timeout⟩

/-- The test that one entry of the description gives, if it gives one. The name comes from the
entry, or else from its position. -/
def describedCase (t : Files.Tree) (s : Suite) (dir : String) (extensions : List Json)
    (position : Nat) (entry : Json) : Loading (Option Case) := do
  let entries ← entriesOf entry
  let givenName := Json.field entries "name"
  if givenName.holds && (Json.field entries "code").holds then
    warn (.redefined givenName.text (descriptionFile dir))
    return none
  let name := if givenName.holds then givenName else .str (ordinal position)
  if !s.chooses dir name then return none
  s.entryCase t dir extensions entries name

/-- The tests of a description. An entry of the wrong kind costs all of them. -/
def describedCases (t : Files.Tree) (s : Suite) (dir : String) (description : Json) :
    Loading (List Case) := do
  let entries ← entriesOf description
  let extensions ← elementsOf entries "extensions"
  try
    let items ← elementsOf entries "tests"
    (items.zipIdx 1).filterMapM fun (entry, position) =>
      describedCase t s dir extensions position entry
  catch
    | .mismatch m => do
      warn (.description m)
      pure []
    | f => throw f

/-- The test of a code file. -/
def fileCase (t : Files.Tree) (s : Suite) (dir : String) (extensions : List Json)
    (path name : String) : Loading Case := do
  if !t.isFile path then throw .noCodeFile
  let code := Text.ofString ((← fileText t path).getD "")
  let file := caseFile t dir name
  let stdin ← file "stdin"
  let stdout ← file "stdout"
  let exit (kind : String) : Loading Int := do
    let text ← file kind
    if text.isEmpty then pure 0 else integerOf (.str text)
  let compilerExit ← exit "cexitcode"
  let interpreterExit ← exit "iexitcode"
  let info ← file "info"
  let info := if info.isEmpty then codeInfo code else info
  let extensions ← setOf extensions
  return ⟨name, .str code, .str stdin, .str stdout, compilerExit, interpreterExit, .str info, dir,
    extensions, s.timeout⟩

/-- The test of a code file that is chosen and whose name is not taken. A file whose content cannot
be read costs only its own test. -/
def fileCase? (t : Files.Tree) (s : Suite) (dir : String) (taken : List Text)
    (extensions : List Json) (path : String) : Loading (Option Case) := do
  let name := Files.stem (Files.baseName path)
  if taken.contains name || !s.chooses dir (.str name) then return none
  try
    pure (some (← fileCase t s dir extensions path name))
  catch f =>
    match f.contentMessage? with
    | some m =>
      warn (.file path m)
      pure none
    | none => throw f

/-- The tests of code files whose names are not taken. -/
def fileCases (t : Files.Tree) (s : Suite) (dir : String) (taken : List Text)
    (description : Json) : Loading (List Case) := do
  let extensions ← elementsOf (← entriesOf description) "extensions"
  (inOrder (Files.Glob.paths t (Files.join dir "*.code"))).filterMapM
    (fileCase? t s dir taken extensions)

/-- Names that stand more than once, each once, in order. -/
def conflicts (names : List Text) : List Text :=
  inOrder (names.filter fun n => 1 < names.count n).eraseDups

/-- Shorter names come first, names of one length in their own order. -/
def before (a b : Case) : Bool :=
  a.name.length < b.name.length || (a.name.length == b.name.length && !(b.name < a.name))

/-- The chosen tests of a section in order, or none if two have the same name. -/
def load (t : Files.Tree) (s : Suite) (dir : String) : Loading (List Case) := do
  if !t.isDirectory dir then throw .noDirectory
  let description ← s.description t dir
  let described ← describedCases t s dir description
  let ofFiles ← fileCases t s dir (described.map (·.name)) description
  let cases := ofFiles ++ described
  match conflicts (cases.map (·.name)) with
  | [] => return cases.mergeSort before
  | names =>
    warn (.conflict names)
    return []

end Suite
end TacBench.Bench
