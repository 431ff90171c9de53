import TacBench.Json

/-! JSON text of a value, in ASCII: other code points are written by their code, those beyond
sixteen bits in two halves. -/
namespace TacBench.Json

def codeUnit (n : Nat) : String := "\\u" ++ String.ofList (Text.hexPadded 4 n)

def printPoint (c : CodePoint) : String :=
  let n := c.toNat
  if c = .char '"' then "\\\""
  else if c = .char '\\' then "\\\\"
  else if 32 ≤ n ∧ n < 127 then String.singleton c.seen
  else if n < 0x10000 then codeUnit n
  else codeUnit (0xD800 + (n - 0x10000) / 0x400) ++ codeUnit (0xDC00 + (n - 0x10000) % 0x400)

def printText (s : Text) : String := s.foldl (fun acc c => acc ++ printPoint c) "\"" ++ "\""

def print : Json → String
  | .null => "null"
  | .bool b => if b then "true" else "false"
  | .int n => toString n
  | .float x => x.text
  | .str s => printText s
  | .list xs => "[" ++ String.intercalate "," (items xs) ++ "]"
  | .dict es => "\x7b" ++ String.intercalate "," (entries es) ++ "\x7d"
where
  items : List Json → List String
    | [] => []
    | x :: xs => print x :: items xs
  entries : List (Text × Json) → List String
    | [] => []
    | (k, v) :: es => (printText k ++ ":" ++ print v) :: entries es

end TacBench.Json
