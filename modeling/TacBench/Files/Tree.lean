import TacBench.Dictionary
import TacBench.Files.Path
import TacBench.Text.Quoted
import TacBench.Text.Utf8

/-! A file system with a current directory. Paths are read as an operating system reads them: every
part but the last must be a directory that exists, and neither a name nor a path may be too long.
There are no links and no permissions. -/
namespace TacBench.Files

inductive Cause where
  | notFound
  | exists
  | notDirectory
  | isDirectory
  | tooLong
  | nullCharacter
  deriving DecidableEq, Repr

structure Fault where
  cause : Cause
  path : String
  deriving DecidableEq, Repr

def Fault.message (f : Fault) : String :=
  let shown := Text.quoted f.path
  match f.cause with
  | .notFound => s!"[Errno 2] No such file or directory: {shown}"
  | .exists => s!"[Errno 17] File exists: {shown}"
  | .notDirectory => s!"[Errno 20] Not a directory: {shown}"
  | .isDirectory => s!"[Errno 21] Is a directory: {shown}"
  | .tooLong => s!"[Errno 36] File name too long: {shown}"
  | .nullCharacter => "embedded null byte"

inductive Node where
  | file (content : List UInt8)
  | directory
  /-- A device that takes everything and holds nothing. -/
  | sink
  deriving DecidableEq, Repr

/-- The names that lead from the root to a node, last name first. -/
abbrev Location := List String

structure Tree where
  /-- The absolute path of the current directory. -/
  top : String
  /-- Everything below the root; the directories on the way to a node are there as well. -/
  nodes : Dictionary Location Node
  deriving Repr

/-- The most bytes in a name. -/
def nameBound : Nat := 255

/-- The most bytes in a path. -/
def pathBound : Nat := 4095

namespace Tree

/-- The current directory. -/
def home (t : Tree) : Location := (Files.names t.top).reverse

def node? (t : Tree) (l : Location) : Option Node :=
  if l.isEmpty then some .directory else t.nodes.find? l

/-- Follows the parts of a path. The directory above the root is the root. -/
def follow (t : Tree) : Location → List String → Except Cause Location
  | l, [] => .ok l
  | l, part :: rest =>
    match t.node? l with
    | none => .error .notFound
    | some .directory =>
      if part == "" || part == "." then t.follow l rest
      else if part == ".." then t.follow (l.drop 1) rest
      else if nameBound < part.utf8ByteSize then .error .tooLong
      else t.follow (part :: l) rest
    | some _ => .error .notDirectory

/-- Where the way along a path ends, from the root or from the current directory. -/
def reach (t : Tree) (path : String) : Except Cause Location :=
  if path.toList.contains '\x00' then .error .nullCharacter
  else if path.isEmpty then .error .notFound
  else if pathBound < path.utf8ByteSize then .error .tooLong
  else t.follow (if isAbsolute path then [] else t.home) (parts path)

/-- Where a path leads; there need be nothing at its end. -/
def locate (t : Tree) (path : String) : Except Fault Location :=
  (t.reach path).mapError fun c => ⟨c, path⟩

def get? (t : Tree) (path : String) : Option Node :=
  match t.locate path with
  | .ok l => t.node? l
  | .error _ => none

def isFile (t : Tree) (path : String) : Bool :=
  match t.get? path with
  | some (.file _) => true
  | _ => false

def isDirectory (t : Tree) (path : String) : Bool := t.get? path == some .directory

def exists? (t : Tree) (path : String) : Bool := (t.get? path).isSome

/-- The path as seen from the root of the file system. -/
def absolute (t : Tree) (path : String) : String := normalize (join t.top path)

/-- What stands directly in a directory. -/
def children (t : Tree) (l : Location) : List String :=
  t.nodes.filterMap fun (k, _) =>
    match k with
    | name :: up => if up = l then some name else none
    | [] => none

/-- The names in a directory. -/
def names (t : Tree) (path : String) : Except Fault (List String) := do
  let l ← t.locate path
  match t.node? l with
  | some .directory => .ok (t.children l)
  | some _ => .error ⟨.notDirectory, path⟩
  | none => .error ⟨.notFound, path⟩

def read (t : Tree) (path : String) : Except Fault (List UInt8) := do
  match t.node? (← t.locate path) with
  | some (.file content) => .ok content
  | some .sink => .ok []
  | some .directory => .error ⟨.isDirectory, path⟩
  | none => .error ⟨.notFound, path⟩

/-- Something new can stand only in a directory. -/
def inDirectory (t : Tree) (l : Location) : Bool := t.node? (l.drop 1) == some .directory

/-- A path without the slashes at its end, unless it has nothing else. -/
def bare (path : String) : String :=
  let kept := path.toList.reverse.dropWhile (· == '/')
  if kept.isEmpty then path else String.ofList kept.reverse

/-- Where a file is to stand; a slash at the end of the path asks for a directory instead. -/
def locateNew (t : Tree) (path : String) : Except Fault Location := do
  match t.locate (bare path) with
  | .error f => .error { f with path }
  | .ok l =>
    if bare path = path then .ok l
    else if t.inDirectory l then .error ⟨.isDirectory, path⟩
    else .error ⟨.notFound, path⟩

def write (t : Tree) (path : String) (content : List UInt8) : Except Fault Tree := do
  let l ← t.locateNew path
  match t.node? l with
  | some .directory => .error ⟨.isDirectory, path⟩
  | some .sink => .ok t
  | some (.file _) => .ok { t with nodes := t.nodes.insert l (.file content) }
  | none =>
    if t.inDirectory l then .ok { t with nodes := t.nodes.insert l (.file content) }
    else .error ⟨.notFound, path⟩

def makeDirectory (t : Tree) (path : String) : Except Fault Tree := do
  match t.locate (bare path) with
  | .error f => .error { f with path }
  | .ok l =>
    if (t.node? l).isSome then .error ⟨.exists, path⟩
    else if t.inDirectory l then .ok { t with nodes := t.nodes.insert l .directory }
    else .error ⟨.notFound, path⟩

/-- Removes a node and everything below it. -/
def erase (t : Tree) (l : Location) : Tree :=
  { t with nodes := t.nodes.filter fun (k, _) => !l.isSuffixOf k }

/-- Removes a file. -/
def unlink (t : Tree) (path : String) : Except Fault Tree := do
  let l ← t.locate path
  match t.node? l with
  | some .directory => .error ⟨.isDirectory, path⟩
  | some _ => .ok (t.erase l)
  | none => .error ⟨.notFound, path⟩

/-- Puts a file with the directories on the way to it, or an empty directory if there is no
content. -/
def place (t : Tree) (names : List String) (content : Option (List UInt8)) : Tree :=
  let nodes := (List.range names.length).foldl (fun (nodes : Dictionary Location Node) i =>
    let l := (names.take (i + 1)).reverse
    if i + 1 = names.length then
      match content with
      | some bytes => nodes.insert l (.file bytes)
      | none => if nodes.contains l then nodes else nodes.insert l .directory
    else if nodes.contains l then nodes else nodes.insert l .directory) t.nodes
  { t with nodes }

/-- Directories that every file system has. -/
def usualDirectories : List String :=
  ["bin", "boot", "dev", "etc", "home", "lib", "media", "mnt", "opt", "proc", "root", "run", "sbin",
    "srv", "sys", "tmp", "usr", "var"]

/-- A file system with nothing in the current directory. -/
def fresh (top : String) : Tree :=
  let usual := usualDirectories.map fun name => ([name], Node.directory)
  place { top, nodes := usual ++ [(["null", "dev"], .sink)] } (Files.names top) none

/-- The file system with the given files, each with the names that lead to it from the current
directory. -/
def ofFiles (top : String) (files : List (List String × Option (List UInt8))) : Tree :=
  files.foldl (fun t (names, content) => t.place (Files.names top ++ names) content) (fresh top)

/-- The files below a directory and the directories with nothing in them, with the names that lead
to them from there. A directory has no content. -/
def leaves (t : Tree) (l : Location) : List (List String × Option (List UInt8)) :=
  if t.node? l = some .directory then
    (([], Node.directory) :: (t.nodes.filter fun (k, _) => l.isSuffixOf k && k ≠ l).map
      fun (k, n) =>
        (k.take (k.length - l.length), n)).filterMap fun (k, n) =>
      match n with
      | .file content => some (k.reverse, some content)
      | .sink => some (k.reverse, some [])
      | .directory => if (t.children (k ++ l)).isEmpty then some (k.reverse, none) else none
  else []

end Tree
end TacBench.Files
