import TacBench.Json.Typed
import TacBench.Machine.State

/-! Machines and operands as JSON. Stacks are written from the bottom to the top. -/
namespace TacBench

def Frame.toJson (f : Frame) : Json := .list (f.map fun (k, v) => .list [.str k, v.toJson])

def Machine.toJson (m : Machine) : Json :=
  .dict [("tf", match m.temp with | some f => Frame.toJson f | none => .null),
    ("lf", .list (m.locals.reverse.map Frame.toJson)),
    ("gf", Frame.toJson m.globals),
    ("calls", .list (m.calls.reverse.map .int)),
    ("stack", .list (m.stack.reverse.map Value.toJson)),
    ("pc", .int m.pc), ("done", .int m.executed), ("line", .int m.line),
    ("iprice", .int m.instructionPrice), ("oprice", .int m.operandPrice)]

/-- The fields of an operand: fields that its kind lacks are null. -/
def Operand.toFields (o : Operand) : List (String × Json) :=
  let entries (kind : String) (value frame name type label : Json) : List (String × Json) :=
    [("type", .str kind), ("value", value), ("frame", frame), ("name", name), ("data_type", type),
      ("label", label)]
  match o with
  | .constant v => entries "CONSTANT" v.toJson .null .null .null .null
  | .var f n => entries "VARIABLE" .null (.str f.spelling) (.str n) .null .null
  | .label l => entries "LABEL" .null .null .null .null (.str l)
  | .dataType t => entries "DATA_TYPE" .null .null .null (.str t.keyword) .null

def Operand.toJson (o : Operand) : Json := .record o.toFields

end TacBench
