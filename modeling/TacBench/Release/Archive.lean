import TacBench.CommandLine.Grammar
import TacBench.Files.Glob
import TacBench.Json
import TacBench.Text.Lines
import TacBench.Text.Replace

/-! The archive in which a compiler is handed in: its sources with a header that names their
authors, the accompanying files, and on demand the tests. -/
namespace TacBench.Release

/-- A member of an archive; only files have content. -/
structure Member where
  name : String
  content : Option (List UInt8)
  deriving DecidableEq, Repr

structure Archive where
  path : String
  members : List Member := []
  deriving DecidableEq, Repr

inductive Fault where
  | file (f : Files.Fault)
  | encoding (f : Utf8.Fault)
  /-- The directory of the sources is not given by a text. -/
  | directoryKind

structure Options where
  /-- Left out, it is a directory of the user. -/
  sourceDirectory : Json := .null
  archiveName : Json := .str "xkobel02"
  tests : Bool := false
  deriving Repr

/-- Where a release is made. -/
structure Setting where
  files : Files.Tree
  /-- The directory of the user. -/
  home : String
  /-- The authors of the changes of each file, one a line, newest first. -/
  changes : String → String
  /-- The time, as headers show it. -/
  now : String

/-- Authors, those of more changes first, and then in order of their newest change. -/
def authors (changes : String) : List String :=
  let lines := (Text.lines changes.toList).map String.ofList
  lines.eraseDups.mergeSort fun a b => lines.count b ≤ lines.count a

def headerLines (name author now : String) : List String := [
  "/*",
  " * Source file of project of IFJ17 language compiler for IFJ as FIT BUT in Brno.",
  " * ",
  s!" * @file {name}",
  s!" * @author {author} ",
  " * ",
  s!" * Generated: {now}",
  " * Academic year: 2017-2018",
  " * Team: xkobel02, xkolar71, xpazdi02, xnguye16",
  " * Project URL: https://github.com/thejoeejoee/IFJ-VUT-BIT-2017-2018",
  " * Encoding: UTF-8",
  " */"]

def makefile : String := "Makefile"

/-- A header as comment lines of the file's own language. -/
def header (name author now : String) : String :=
  let text := String.join ((headerLines name author now).map (· ++ "\n"))
  if name = makefile then
    "\n".intercalate ((Text.lines text.toList).map fun line => "# " ++ String.ofList line)
  else text

def withHeader (s : Setting) (name source : String) : String :=
  header name (", ".intercalate (authors (s.changes name))) s.now ++ "\n" ++ source

/-- What is put into an archive. -/
structure Work where
  log : List String := []
  archive : Archive

abbrev Making := EStateM Fault Work

/-- The log by lines; a name in it may itself have several. -/
def Work.lines (w : Work) : List String :=
  (Text.lines (String.join (w.log.map (· ++ "\n"))).toList).map String.ofList

/-- The name of the archive in the current directory, if it stands there. -/
def Work.name? (files : Files.Tree) (w : Work) : Option String :=
  match files.locate w.archive.path with
  | .ok (name :: directory) => if directory = files.home then some name else none
  | _ => none

def logged (what : String) : Making Unit :=
  modify fun w => { w with log := w.log ++ [s!"Processing {what}."] }

def put (m : Member) : Making Unit :=
  modify fun w => { w with archive := { w.archive with members := w.archive.members ++ [m] } }

/-- Compiled files are not handed in. -/
def isCompiled (path : String) : Bool :=
  "pyc".toList.isSuffixOf path.toList || Text.occurs "__pycache__".toList path.toList

/-- Puts a file, or a directory with everything below it, but nothing that is left out; the archive
itself is passed over. The fuel bounds the depth. -/
def addTree (files : Files.Tree) (leftOut : String → Bool) : Nat → String → String → Making Unit
  | 0, _, _ => return
  | fuel + 1, path, name => do
    if leftOut path || files.absolute path == files.absolute (← get).archive.path then return
    match files.get? path with
    | some (.file content) => put ⟨name, some content⟩
    | some .sink => put ⟨name, none⟩
    | some .directory =>
      put ⟨name, none⟩
      match files.names path with
      | .ok names =>
        names.forM fun n => addTree files leftOut fuel (Files.join path n) (name ++ "/" ++ n)
      | .error f => throw (.file f)
    | none =>
      match files.locate path with
      | .error f => throw (.file f)
      | .ok _ => throw (.file ⟨.notFound, path⟩)

def add (files : Files.Tree) (leftOut : String → Bool) (path name : String) : Making Unit :=
  addTree files leftOut (files.nodes.length + 1) path name

/-- Puts a source file with its header. -/
def addSource (s : Setting) (directory name : String) : Making Unit := do
  logged name
  match s.files.read (Files.join directory name) with
  | .error f => throw (.file f)
  | .ok bytes =>
    match Utf8.decode bytes with
    | .error f => throw (.encoding f)
    | .ok source =>
      let source := String.ofList (Text.unifyBreaks source.toList)
      put ⟨name, some (Utf8.encode (withHeader s name source))⟩

/-- Files that go with the sources, seen from their directory, and their names in the archive. -/
def accompanying : List (String × String) :=
  [("../rozdeleni", "rozdeleni"), ("../rozsireni", "rozsireni"),
    ("../doc/build/doc.pdf", "dokumentace.pdf")]

def addAccompanying (s : Setting) (directory : String) : Making Unit :=
  accompanying.forM fun (place, name) => do
    let path := Files.join directory place
    logged path
    add s.files (fun _ => false) path name

/-- The parts of the tests. -/
def testParts : List String :=
  ["ifj2017/benchmark", "ifj2017/interpreter", "ifj2017/test", "ifj2017/tests",
    "ifj2017/__init__.py"]

def addTests (files : Files.Tree) : Making Unit := do
  add files (fun _ => false) (Files.join files.top "test.py") "tests/test.py"
  logged "tests/test.py"
  testParts.forM fun part => do
    add files isCompiled (Files.join files.top part) ("tests/" ++ part)
    logged ("tests/" ++ part)

def sourcePatterns : List String := ["*.c", "*.h", makefile]

/-- The source files in a directory. -/
def sourceNames (files : Files.Tree) (directory : String) : List String :=
  (sourcePatterns.flatMap fun p => Files.Glob.namesIn files directory p false).eraseDups

/-- Opens a new archive in the place of an old one. -/
def openArchive (files : Files.Tree) (path : String) : Except Fault Files.Tree :=
  let files := match files.unlink path with
    | .ok files => files
    | .error _ => files
  if files.exists? path then .error (.file ⟨.exists, path⟩)
  else match files.write path [] with
    | .ok files => .ok files
    | .error f => .error (.file f)

def defaultSource (home : String) : String := Files.join home "projects/IFJ-VUT-BIT-2017-2018/src"

def sourceDirectory (home : String) : Json → Except Fault String
  | .null => .ok (defaultSource home)
  | .str s => .ok s.shown
  | _ => .error .directoryKind

/-- Makes the archive: what was logged and the archive. -/
def make (s : Setting) (o : Options) : Except Fault Work := do
  let directory := s.files.absolute (← sourceDirectory s.home o.sourceDirectory)
  let names := sourceNames s.files directory
  let path := o.archiveName.text.shown ++ ".tgz"
  let files ← openArchive s.files path
  let s := { s with files }
  let work : Making Unit := do
    names.forM (addSource s directory)
    addAccompanying s directory
    if o.tests then addTests s.files
  match work.run { archive := { path } } with
  | .ok _ w => .ok w
  | .error f _ => .error f

inductive Key where
  | help
  | sourceDirectory
  | archiveName
  | tests
  deriving DecidableEq, Repr

open CommandLine in
def grammar : Grammar Key where
  options := [⟨.help, ["-h", "--help"], false⟩, ⟨.sourceDirectory, ["--source_dir"], true⟩,
    ⟨.archiveName, ["--archive_name"], true⟩, ⟨.tests, ["--tests"], false⟩]

/-- The options of a command line, or the exit code with which the command ends. -/
def options (arguments : List String) : Except Nat Options :=
  grammar.carryOut (fun o action =>
    match action.1 with
    | .help => .error 0
    | .sourceDirectory => .ok { o with sourceDirectory := CommandLine.valueOf action.2 }
    | .archiveName => .ok { o with archiveName := CommandLine.valueOf action.2 }
    | .tests => .ok { o with tests := true }) {} arguments

end TacBench.Release
