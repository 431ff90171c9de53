/-! Paths as texts: parts between slashes, with the usual rules for joining and cutting them. -/
namespace TacBench.Files

def isAbsolute (path : String) : Bool := path.toList.head? == some '/'

/-- The second path seen from the first; an absolute path stands for itself. -/
def join (base path : String) : String :=
  if isAbsolute path then path
  else if base.isEmpty || base.toList.getLast? == some '/' then base ++ path
  else base ++ "/" ++ path

/-- Everything behind the last slash. -/
def baseName (path : String) : String :=
  String.ofList (path.toList.reverse.takeWhile (· != '/')).reverse

/-- Everything before the last slash, without slashes at its end unless it has nothing else. -/
def directory (path : String) : String :=
  let head := (path.toList.reverse.dropWhile (· != '/')).reverse
  if head.all (· == '/') then String.ofList head
  else String.ofList (head.reverse.dropWhile (· == '/')).reverse

/-- A name without its last extension. Dots at the beginning open no extension. -/
def stem (name : String) : String :=
  let (dots, rest) := (name.toList.takeWhile (· == '.'), name.toList.dropWhile (· == '.'))
  if rest.contains '.' then
    String.ofList (dots ++ ((rest.reverse.dropWhile (· != '.')).drop 1).reverse)
  else name

/-- The parts of a path between its slashes. -/
def parts (path : String) : List String := (path.toList.splitOn '/').map String.ofList

/-- The names on an absolute path. -/
def names (path : String) : List String := (parts path).filter (!·.isEmpty)

/-- A path as seen from a directory, both given by absolute paths without `.` and `..`. -/
def relative (base path : String) : String :=
  let shared := (((names base).zip (names path)).takeWhile fun (a, b) => a = b).length
  let way := List.replicate ((names base).length - shared) ".." ++ (names path).drop shared
  if way.isEmpty then "." else String.intercalate "/" way

/-- The path without empty parts, `.` and `..`; a leading `..` stays where there is nothing to
leave. -/
def normalize (path : String) : String :=
  let slashes :=
    match path.toList with
    | '/' :: '/' :: '/' :: _ => "/"
    | '/' :: '/' :: _ => "//"
    | '/' :: _ => "/"
    | _ => ""
  let kept := (parts path).foldl (fun (acc : List String) part =>
    if part == "" || part == "." then acc
    else if part != ".." then part :: acc
    else match acc with
      | [] => if slashes.isEmpty then [part] else []
      | ".." :: _ => part :: acc
      | _ :: rest => rest) []
  let text := slashes ++ String.intercalate "/" kept.reverse
  if text.isEmpty then "." else text

end TacBench.Files
