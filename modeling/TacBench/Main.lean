import TacBench.CommandLine.Interpret

/-! The interpreter as a program: it runs the code in a file, reads a line of input whenever the
code asks for one and writes output as it comes. -/
namespace TacBench.Main

open CommandLine

def usage : String := "usage: tacbench [-h] file"

/-- Writes what has been written since an earlier state. -/
def writeNew (before after : Machine) : IO Unit := do
  let new := after.written.take (after.written.length - before.written.length)
  for (channel, text) in new.reverse do
    let stream ← match channel with
      | .out => IO.getStdout
      | .err => IO.getStderr
    stream.putStr text.shown
    stream.flush

/-- Lets the next instruction find a line of input if it will read one. -/
def supply (p : Program) (m : Machine) : IO Machine := do
  if (p.fetch? m).any (·.opcode = .read) && m.input.isEmpty then
    return { m with input := (← (← IO.getStdin).getLine).toList }
  return m

def failureText (f : Machine.Failure) : String :=
  match f.message with
  | .ok text => text.shown
  | .error v => v.message

partial def runFrom (p : Program) (m : Machine) : IO UInt32 := do
  let m ← supply p m
  match Machine.step p m with
  | .ended => return 0
  | .next m' =>
    writeNew m m'
    runFrom p m'
  | .interrupted m' =>
    writeNew m m'
    return 0
  | .failed f m' =>
    writeNew m m'
    IO.eprintln (failureText f)
    return 1

/-- The code in a file, or the message about it. -/
def readCode (path : String) : IO (Except String String) := do
  try
    let bytes ← IO.FS.readBinFile path
    return (Interpret.code bytes.toList).mapError (·.message path)
  catch e =>
    let cause := match e with
      | .noFileOrDirectory .. => Files.Fault.message ⟨.notFound, path⟩
      | .inappropriateType .. => Files.Fault.message ⟨.isDirectory, path⟩
      | e => toString e
    return .error (Interpret.unreadable path cause)

def run (arguments : List String) : IO UInt32 := do
  match Interpret.file arguments with
  | .error code =>
    if code = 0 then IO.println usage else IO.eprintln usage
    return UInt32.ofNat code
  | .ok path =>
    match ← readCode path with
    | .error message =>
      IO.eprintln message
      return 1
    | .ok text =>
      match Program.load text with
      | .error f =>
        IO.eprintln (f.message)
        return 1
      | .ok p => runFrom p (p.start "" none)

end TacBench.Main

def main (arguments : List String) : IO UInt32 := TacBench.Main.run arguments
