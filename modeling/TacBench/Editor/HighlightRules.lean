import TacBench.Code.Opcode

/-! The rules by which the editor colours code: patterns, with one colour for all that they match or
one for each of their groups. -/
namespace TacBench.Editor

inductive Coloring where
  | whole (color : Option String)
  | byGroup (colors : List (Option String))
  deriving DecidableEq, Repr

structure ColorRule where
  patterns : List String
  coloring : Coloring
  deriving DecidableEq, Repr

namespace ColorRule

/-- Characters of identifiers. -/
def identifier : String := "[\\w_\\-\\$&%*]+"

def commands : ColorRule :=
  ⟨Opcode.sortedNames.map ("(?i)" ++ ·), .whole (some "#1d73a3")⟩

def frames : ColorRule := ⟨["[LGT]F@"], .whole (some "#930c80")⟩

def variableNames : ColorRule := ⟨["(?<=[LGT]F@)" ++ identifier], .whole (some "black")⟩

def jumps : ColorRule :=
  ⟨["(?i)(call|label|JUMP|jumpifeq|jumpifneq|jumpifeqs|jumpifneqs)(\\s+)(" ++ identifier ++ ")"],
    .byGroup [some "#1d73a3", none, some "#4c4c4c"]⟩

def constants : ColorRule :=
  ⟨["(float|int)(@)(-?[0-9.]+)", "(bool)(@)((?i)(true|false))", "(string)@(.*)"],
    .whole (some "#1ed3a8")⟩

def comments : ColorRule := ⟨["#.*$"], .whole (some "gray")⟩

/-- One word is coloured letter by letter. -/
def nyan : ColorRule :=
  ⟨["([nN])([yY])([aA])([nN])"],
    .byGroup [some "#ED1869", some "#F2BC1F", some "#39BFC1", some "#672980"]⟩

/-- All rules; later ones paint over earlier ones. -/
def all : List ColorRule := [commands, frames, variableNames, jumps, constants, comments, nyan]

end ColorRule
end TacBench.Editor
