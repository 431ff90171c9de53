import TacBench.Machine.Access

/-! The one-line summary of a machine that the debugging commands write. -/
namespace TacBench.Machine

def variableText (e : String × Value) : Except Value.Fault Text := do
  let v ← e.2.text
  return e.1 ++ ": " ++ v

def frameText (f : Frame) : Except Value.Fault Text := do
  return List.intercalate ", " (← f.mapM variableText)

/-- An empty frame shows as a missing one, the local frame apart. -/
def optionalFrameText (f : Frame) : Except Value.Fault Text :=
  if f.isEmpty then .ok "-" else frameText f

def summary (m : Machine) : Except Value.Fault Text := do
  let temp ← optionalFrameText (m.temp.getD [])
  let locals ← match m.locals with
    | f :: _ => frameText f
    | [] => pure (Text.ofString "-")
  let depth := m.locals.length
  let globals ← optionalFrameText m.globals
  let stack := List.intercalate ", " (← m.stack.mapM Value.text)
  let pc := m.pc
  let executed := m.executed
  let price := m.price
  let ip := m.instructionPrice
  let op := m.operandPrice
  return "State(TF=(" ++ temp ++ "), LF=(" ++ locals ++ s!")({depth}), GF=(" ++ globals ++
    "), STACK=[" ++ stack ++ s!"], PC={pc}, EXECUTED={executed}, PRICE={price}({ip}+{op}))"

/-- The price with its two parts. -/
def priceText (m : Machine) : String :=
  let price := m.price
  let ip := m.instructionPrice
  let op := m.operandPrice
  s!"{price} ({ip}+{op})"

end TacBench.Machine
