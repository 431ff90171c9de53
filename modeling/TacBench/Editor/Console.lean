/-! The console of the editor: a program that asks for a line waits until one is typed. -/
namespace TacBench.Editor

inductive ConsoleEvent where
  | read
  | write (text : String)
  /-- Ends a wait. -/
  | unblock
  deriving DecidableEq, Repr

structure Console where
  /-- Text that was typed and not read yet. -/
  text : String := ""
  /-- Lines that will be typed when the console waits. -/
  coming : List String := []
  deriving DecidableEq, Repr

namespace Console

def write (text : String) (c : Console) : List ConsoleEvent × Console := ([.write text], c)

def typed (text : String) (c : Console) : List ConsoleEvent × Console :=
  ([.unblock], { c with text })

/-- The text typed last, which is then gone. -/
def readLine (c : Console) : String × List ConsoleEvent × Console :=
  match c.coming with
  | [] => (c.text, [.read], { c with text := "" })
  | line :: coming => (line, [.read, .unblock], { c with text := "", coming })

end Console
end TacBench.Editor
