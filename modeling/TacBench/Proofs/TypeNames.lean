import TacBench.Proofs.Assignments
import TacBench.Proofs.OperandForms

/-! The names of types. The type query stores the name of the kind of a value. For truth values and
numbers that is the keyword with which constants of the type are written; for texts it is not. A
variable that has no value yet is refused like in any other reading. -/
namespace TacBench

theorem DataType.kind_injective {t u : DataType} (same : t.kind = u.kind) : t = u := by
  cases t <;> cases u
  all_goals cases same
  all_goals rfl

/-- The name of the kind is the keyword for all types but that of texts. -/
theorem DataType.name_eq_keyword_iff (t : DataType) : t.kind.name = t.keyword ↔ t ≠ .string := by
  cases t <;> decide

theorem Value.exists_dataType {v : Value} (some : v ≠ .none) : ∃ t : DataType, v.kind = t.kind := by
  cases v with
  | none => exact absurd rfl some
  | bool b => exact ⟨.bool, rfl⟩
  | int n => exact ⟨.int, rfl⟩
  | float x => exact ⟨.float, rfl⟩
  | str s => exact ⟨.string, rfl⟩

namespace Operand

variable {text : String} {v : Value}

/-- A text with the keyword of the type, in any letter case, before the mark. -/
def WrittenAs (t : DataType) (text : String) : Prop :=
  ∃ k rest, text.toList = k ++ '@' :: rest ∧ Text.SpelledAs t.keyword k

theorem constant_writtenAs (parsed : parse text = .ok (.constant v)) :
    ∃ t, WrittenAs t text ∧ v.kind = t.kind := by
  have reading := reading_parse text.toList
  rw [String.ofList_toList, parsed] at reading
  generalize split : text.toList = s at reading
  cases reading with
  | denoted denotes =>
    cases denotes with
    | @constant t k s rest v keyword single ended literal =>
      exact ⟨t, ⟨k, rest, split, keyword⟩, literal.kind⟩

end Operand

namespace Machine

open Operand

variable {m : Machine} {f : FrameRef} {name : String} {o : Operand} {v : Value}

theorem typeName_leads (found : lookup m (.operand o) = .ok v) :
    Leads (typeName (.operand (.var f name)) (.operand o)) m
    (stored m f name (.str v.kind.name)) := by
  refine (read_found rfl found).andThen fun x₁ alike => ?_
  refine (read_found alike found).andThen fun x₂ alike => ?_
  exact assign_leads alike f name (.str v.kind.name)

theorem typeName_missing {e : Fault} (missing : lookup m (.operand o) = .error e) :
    Leads (typeName (.operand (.var f name)) (.operand o)) m (.error e) := by
  have reads := read_leads (s := .operand o) (x := m) rfl
  rw [missing] at reads
  obtain ⟨m', ran⟩ := reads
  exact ⟨m', by rw [typeName, EStateM.run_bind, ran]⟩

/-- The type query succeeds for every constant and for every variable that has a value. What it
stores is the keyword of the constant, or that of the type of the variable's value and so of any
constant with this value, unless the type is that of texts, whose name differs from the keyword. For
a variable without a value it fails. -/
theorem typeName_exact (declared : Declared m f name) (line : Int × String) :
    (∀ t : DataType, t.kind.name = t.keyword ↔ t ≠ .string) ∧
    (∀ text v, parse text = .ok (.constant v) → ∃ t, WrittenAs t text ∧
      Assigns (Opcode.type.on [.var f name, .constant v] line) m f name (.str t.kind.name)) ∧
    (∀ g x v, lookup m (.operand (.var g x)) = .ok v → ∃ t, v.kind = t.kind ∧
      (∀ text, parse text = .ok (.constant v) → WrittenAs t text) ∧
      Assigns (Opcode.type.on [.var f name, .var g x] line) m f name (.str t.kind.name)) ∧
    ∀ g x d, frameOf m g.kind = .ok (some d) → d.find? x = some .none →
      Refuses (Opcode.type.on [.var f name, .var g x] line) m
        (.language (.undefinedVariable g.spelling x)) := by
  refine ⟨DataType.name_eq_keyword_iff, ?_, ?_, ?_⟩
  · intro text v parsed
    obtain ⟨t, written, kind⟩ := constant_writtenAs parsed
    refine ⟨t, written, ?_⟩
    rw [← kind]
    exact Leads.assigns (typeName_leads rfl) declared
  · intro g x v found
    obtain ⟨t, kind⟩ := Value.exists_dataType (lookup_variable_ne_none found)
    refine ⟨t, kind, fun text parsed => ?_, ?_⟩
    · obtain ⟨u, written, kind'⟩ := constant_writtenAs parsed
      rwa [DataType.kind_injective (kind.symm.trans kind')]
    · rw [← kind]
      exact Leads.assigns (typeName_leads found) declared
  · intro g x d there empty
    have missing : lookup m (.operand (.var g x)) =
        .error (.language (.undefinedVariable g.spelling x)) := by
      rw [lookup_variable, there]
      change valueIn g x (some d) = _
      rw [valueIn, empty]
    exact Leads.refuses (typeName_missing missing) rfl (by simp [Opcode.on]) (by simp)

/-- A variable with a value, and one without. -/
def sevenAndNone : Machine where
  globals := [("x", .int 7), ("y", .none)]

theorem seven_typed :
    let x : Operand := .var ⟨.globals, true, true⟩ "x"
    let y : Operand := .var ⟨.globals, true, true⟩ "y"
    let line : Int × String := (1, "")
    Declared sevenAndNone ⟨.globals, true, true⟩ "y" ∧ parse "INT@7" = .ok (.constant (.int 7)) ∧
    (∃ t, WrittenAs t "INT@7" ∧ Assigns (Opcode.type.on [y, .constant (.int 7)] line) sevenAndNone
      ⟨.globals, true, true⟩ "y" (.str t.kind.name)) ∧
    (∃ t, WrittenAs t "INT@7" ∧ Assigns (Opcode.type.on [y, x] line) sevenAndNone
      ⟨.globals, true, true⟩ "y" (.str t.kind.name)) ∧
    Refuses (Opcode.type.on [y, y] line) sevenAndNone
    (.language (.undefinedVariable "GF" "y")) := by
  intro x y line
  have declared : Declared sevenAndNone ⟨.globals, true, true⟩ "y" :=
    ⟨sevenAndNone.globals, rfl, by decide⟩
  have parsed : parse "INT@7" = .ok (.constant (.int 7)) := by decide +kernel
  obtain ⟨-, constants, valued, missing⟩ := typeName_exact declared line
  obtain ⟨t, -, written, assigned⟩ := valued ⟨.globals, true, true⟩ "x" (.int 7) rfl
  exact ⟨declared, parsed, constants "INT@7" (.int 7) parsed, ⟨t, written "INT@7" parsed, assigned⟩,
    missing ⟨.globals, true, true⟩ "y" sevenAndNone.globals rfl rfl⟩

/-- A text has another name than its keyword, and a variable without a value has none at all. -/
theorem texts_misnamed :
    let y : Operand := .var ⟨.globals, true, true⟩ "y"
    parse "string@abc" = .ok (.constant (.str "abc")) ∧
    (∃ m', (execute (Opcode.type.on [y, .constant (.str "abc")] (1, ""))).run
      sevenAndNone = .ok () m' ∧
      valueAt m' 0 "y" = some (.str "str")) ∧
    ∃ m', (execute (Opcode.type.on [y, y] (1, ""))).run sevenAndNone =
      .error (.language (.undefinedVariable "GF" "y")) m' :=
  ⟨by decide +kernel, ⟨_, rfl, rfl⟩, _, rfl⟩

end Machine
end TacBench
