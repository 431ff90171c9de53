import TacBench.Diff.Unified
import TacBench.Text.Lines

/-! The part of a test log that compares the expected output with the actual one: as a difference,
or both in full. -/
namespace TacBench.Bench

def commentLines (s : Text) : Text := (Text.pointLines s).flatMap fun l => "# " ++ l ++ "\n"

/-- Both outputs, one after the other. -/
def bothOutputs (expected actual : Text) : Text :=
  "EXPECTED INTERPRETER STDOUT:\n\n" ++ commentLines expected ++
    "\n\n# CURRENT INTERPRETER STDOUT:\n\n" ++ commentLines actual ++ "\n"

/-- The difference between the outputs. The two names and the first range are joined by a comment
sign, each further line begins with a line feed and one. -/
def outputDifference (expected actual : Text) : Text :=
  let lines := Text.keptLines CodePoint.seen
  let diff := Diff.unified "expected" "actual" (lines expected) (lines actual)
  let further : Text := (diff.drop 3).flatMap fun l => "\n# " ++ l
  "STDOUT DIFF:\n# " ++ List.intercalate "# " (diff.take 3) ++ further ++ "\n"

/-- An output that is empty or missing is shown in full. -/
def outputLog (noDifference : Bool) (expected actual : Option Text) : Text :=
  let e := expected.getD []
  let a := actual.getD []
  if noDifference || e.isEmpty || a.isEmpty then bothOutputs e a else outputDifference e a

end TacBench.Bench
