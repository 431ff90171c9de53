import TacBench.Files.Tree
import TacBench.Text.Replace

/-! The file that the editor has open. Its address may be written with the scheme of local files. -/
namespace TacBench.Editor

structure SourceFile where
  path : String := ""
  deriving DecidableEq, Repr

namespace SourceFile

inductive Fault where
  | file (f : Files.Fault)
  | encoding (f : Utf8.Fault)

/-- The path in an address: the scheme is left out wherever it stands. -/
def pathOf (address : String) : String :=
  String.ofList (Text.replace "file://".toList [] address.toList)

/-- Opens an address, and tells whether it is another one than the path that is open. -/
def openAt (address : String) (f : SourceFile) : Bool × SourceFile :=
  if f.path = address then (false, f) else (true, ⟨pathOf address⟩)

/-- The text of the file; there is none as long as no file is open. -/
def read (t : Files.Tree) (f : SourceFile) : Except Fault String :=
  if f.path.isEmpty then .ok ""
  else match t.read f.path with
    | .error e => .error (.file e)
    | .ok bytes =>
      match Utf8.decode bytes with
      | .error e => .error (.encoding e)
      | .ok text => .ok text

def write (text : String) (t : Files.Tree) (f : SourceFile) : Except Files.Fault Files.Tree :=
  if f.path.isEmpty then .ok t else t.write f.path (Utf8.encode text)

end SourceFile
end TacBench.Editor
