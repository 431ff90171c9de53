import TacBench.Files.Tree
import TacBench.Json

/-! Files as JSON: a path with a text, or with the bytes in base sixteen where they are no text. A
path that ends in a slash is an empty directory. -/
namespace TacBench.Files

def bytesOfHexadecimal : List Char → List UInt8
  | a :: b :: r =>
    (Text.numeral 16 [(Text.hexValue? a).getD 0, (Text.hexValue? b).getD 0]).toUInt8 ::
      bytesOfHexadecimal r
  | _ => []

def contentOfJson (j : Json) : List UInt8 :=
  match Json.field j.pairs "hex" with
  | .str h => bytesOfHexadecimal h.seen
  | _ => Utf8.encode (j.textOr "")

def contentToJson (bytes : List UInt8) : Json :=
  match Utf8.decode bytes with
  | .ok s => .str s
  | .error _ =>
    .dict [("hex", .str (String.ofList (bytes.flatMap fun b => Text.hexPadded 2 b.toNat)))]

namespace Tree

/-- The tree of files below a directory with an absolute path. -/
def ofJson (top : String) (files : Json) : Tree :=
  ofFiles top (files.pairs.map fun (path, content) =>
    (Files.names path.shown,
      if path.getLast? = some (.char '/') then none else some (contentOfJson content)))

/-- The files below a location, with the path of the location in front of theirs. -/
def toJson (base : String) (t : Tree) (l : Location) : Json :=
  .dict ((t.leaves l).map fun (names, content) =>
    let path := String.intercalate "/" (base :: names)
    match content with
    | some bytes => (path, contentToJson bytes)
    | none => (path ++ "/", .null))

/-- The files below a directory, with their paths as seen from the current one. -/
def belowToJson (t : Tree) (path : String) : Json :=
  match t.locate path with
  | .ok l => toJson (relative t.top (t.absolute path)) t l
  | .error _ => .dict []

end Tree
end TacBench.Files
