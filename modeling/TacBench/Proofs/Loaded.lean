import TacBench.Code.Program
import TacBench.Proofs.Labels

/-! What is known of a program that has been loaded. Each instruction is what its line reads as, its
operands are what its words read as, and no constant lacks a value. -/
namespace TacBench

/-- Two computations in a row succeed one after the other. -/
theorem bind_eq_ok {ε α β : Type} {first : Except ε α} {next : α → Except ε β} {b : β}
    (done : first >>= next = .ok b) : ∃ a, first = .ok a ∧ next a = .ok b := by
  cases first with
  | error e => cases done
  | ok a => exact ⟨a, rfl, done⟩

theorem eq_ok_of_toOption {ε α : Type} {r : Except ε α} {a : α} (read : r.toOption = some a) :
    r = .ok a := by
  cases r with
  | error e => cases read
  | ok b => exact congrArg Except.ok (Option.some.inj read)

namespace Operand

variable {text : String} {o : Operand} {v : Value}

theorem readConstant_ne_none (t : DataType) (s : List Char) : readConstant t s ≠ .ok .none := by
  cases t with
  | bool =>
    simp only [readConstant]
    repeat' split
    all_goals exact nofun
  | int =>
    simp only [readConstant]
    split <;> exact nofun
  | float =>
    simp only [readConstant]
    split <;> exact nofun
  | string => exact nofun

theorem parseConstant_some {keyword value : List Char} {r : Except Fault Operand}
    (read : parseConstant keyword value = some r) (accepted : r = .ok o) :
    ∃ v, o = .constant v ∧ v ≠ .none := by
  subst accepted
  unfold parseConstant at read
  dsimp only at read
  split at read
  · cases read
  · split at read
    · rename_i t _
      cases constant : readConstant t (withoutFinalBreak value) with
      | error f =>
        rw [constant] at read
        cases read
      | ok v =>
        rw [constant] at read
        cases read
        exact ⟨v, rfl, fun missing => readConstant_ne_none t _ (missing ▸ constant)⟩
    · cases read

/-- Texts that name a label: identifiers, unless they are keywords of types. -/
def isLabelName (text : String) : Bool :=
  let word := withoutFinalBreak text.toList
  !isKeywordLike word && isIdentifier word

/-- What a text can be read as. -/
inductive Reads (text : String) : Operand → Prop where
  | constant (v : Value) (some : v ≠ .none) (marked : '@' ∈ text.toList) : Reads text (.constant v)
  | var (f : FrameRef) (name : String) (marked : '@' ∈ text.toList) : Reads text (.var f name)
  | dataType (t : DataType) (keyword : isKeywordLike (withoutFinalBreak text.toList) = true) :
      Reads text (.dataType t)
  | label (named : isLabelName text = true) : Reads text (.label text)

theorem parseVariable_some {frame name : List Char} (read : parseVariable frame name = some o) :
    ∃ f n, o = .var f n := by
  unfold parseVariable at read
  dsimp only at read
  split at read
  · split at read
    · cases read
      exact ⟨_, _, rfl⟩
    · cases read
  · cases read

theorem parseWord_reads (parsed : parseWord text.toList = .ok o) : Reads text o := by
  unfold parseWord at parsed
  dsimp only at parsed
  split at parsed
  · rename_i keyword
    split at parsed
    · cases parsed
      exact .dataType _ keyword
    · cases parsed
  · rename_i plain
    split at parsed
    · rename_i identifier
      cases parsed
      rw [String.ofList_toList]
      exact .label (by simp [isLabelName, plain, identifier])
    · cases parsed

theorem parse_reads (parsed : parse text = .ok o) : Reads text o := by
  unfold parse at parsed
  dsimp only at parsed
  split at parsed
  · exact parseWord_reads parsed
  · rename_i c after behind
    have marked : '@' ∈ text.toList := by
      have head := List.head?_dropWhile_not (· != '@') text.toList
      rw [behind] at head
      have same : c = '@' := by simpa using head
      have member : c ∈ text.toList.dropWhile (· != '@') := behind ▸ List.mem_cons_self
      exact same ▸ (List.dropWhile_sublist _).subset member
    split at parsed
    · rename_i r read
      obtain ⟨v, rfl, some⟩ := parseConstant_some read parsed
      exact .constant v some marked
    · split at parsed
      · rename_i read
        cases parsed
        obtain ⟨f, n, rfl⟩ := parseVariable_some read
        exact .var f n marked
      · cases parsed

theorem mem_withoutFinalBreak {c : Char} {s : List Char} (member : c ∈ s) (other : c ≠ '\n') :
    c ∈ withoutFinalBreak s := by
  unfold withoutFinalBreak
  split
  · rename_i last
    obtain ⟨front, rfl⟩ := List.getLast?_eq_some_iff.mp last
    simpa [other] using member
  · exact member

theorem not_mem_of_isIdentifier {c : Char} {s : List Char} (first : isIdentifierStart c = false)
    (inner : isIdentifierChar c = false) (identifier : isIdentifier s = true) : c ∉ s := by
  intro member
  cases s with
  | nil => cases member
  | cons d rest =>
    simp only [isIdentifier, Bool.and_eq_true, List.all_eq_true] at identifier
    rcases List.mem_cons.mp member with rfl | later
    · exact absurd identifier.1 (by simp [first])
    · exact absurd (identifier.2 _ later) (by simp [inner])

theorem at_not_mem_of_isIdentifier {s : List Char} (identifier : isIdentifier s = true) : '@' ∉ s :=
  not_mem_of_isIdentifier (by decide) (by decide) identifier

theorem not_isLabelName_of_marked (marked : '@' ∈ text.toList) : isLabelName text = false := by
  have inside := mem_withoutFinalBreak marked (by decide)
  cases identifier : isIdentifier (withoutFinalBreak text.toList) with
  | true => exact absurd inside (at_not_mem_of_isIdentifier identifier)
  | false => simp only [isLabelName, identifier, Bool.and_false]

/-- The name that a text gives to a label instruction or a jump. -/
def labelName (text : String) : Option String := if isLabelName text then some text else none

theorem labelName_eq_some {name : String} (named : isLabelName name = true) (u : String) :
    u = name ↔ labelName u = some name := by
  unfold labelName
  constructor
  · rintro rfl
    exact if_pos named
  · intro same
    split at same
    · exact Option.some.inj same
    · cases same

theorem labelName_eq_none (u : String) : isLabelName u = false ↔ labelName u = none := by
  unfold labelName
  cases isLabelName u <;> simp

theorem labelOf_parse (parsed : parse text = .ok o) : Program.labelOf o = labelName text := by
  unfold labelName
  cases parse_reads parsed with
  | constant v _ marked =>
    rw [not_isLabelName_of_marked marked]
    rfl
  | var f name marked =>
    rw [not_isLabelName_of_marked marked]
    rfl
  | dataType t keyword => simp [isLabelName, keyword, Program.labelOf]
  | label named =>
    rw [if_pos named]
    rfl

end Operand

namespace Instruction

variable {line : String} {index : Int} {i : Instruction}

/-- The words behind the command. -/
def words (i : Instruction) : List String := (Text.fields i.source.toList).tail.map String.ofList

/-- The operands are what the words read as, and as many as the command takes. -/
structure Written (i : Instruction) : Prop where
  operands : i.words.map Operand.parse = i.operands.map .ok
  count : i.operands.length = i.opcode.arity

theorem parseOperands_ok {ws : List String} {os : List Operand}
    (parsed : parseOperands ws = .ok os) :
    ws.map Operand.parse = os.map .ok := by
  induction ws generalizing os with
  | nil =>
    cases parsed
    rfl
  | cons w ws ih =>
    obtain ⟨rest, others, parsed⟩ := bind_eq_ok parsed
    obtain ⟨o, first, parsed⟩ := bind_eq_ok parsed
    cases parsed
    rw [List.map_cons, List.map_cons, first, ih others]

theorem parse_written (parsed : parse line index = .ok i) : i.Written := by
  unfold parse at parsed
  split at parsed
  · cases parsed
  · rename_i command words split_
    split at parsed
    · cases parsed
    · rename_i opcode _
      split at parsed
      · cases parsed
      · rename_i count
        split at parsed
        · rename_i operands read
          cases parsed
          have all := parseOperands_ok read
          refine ⟨?_, ?_⟩
          · simpa only [Instruction.words, split_, List.tail_cons] using all
          · have same := congrArg List.length all
            simp only [List.length_map] at same
            exact same.symm.trans (Decidable.not_not.mp count).symm
        · cases parsed
        · cases parsed
        · cases parsed

end Instruction

namespace Program

variable {code : String} {p : Program} {i : Instruction} {n : Int}

theorem loadLines_written {started : Bool} {numbered : List (List Char × Nat)}
    {is : List Instruction} (loaded : loadLines started numbered = .ok is) (member : i ∈ is) :
    i.Written := by
  induction numbered generalizing started is with
  | nil =>
    cases loaded
    cases member
  | cons entry rest ih =>
    obtain ⟨raw, k⟩ := entry
    unfold loadLines at loaded
    dsimp only at loaded
    split at loaded
    · exact ih loaded member
    · split at loaded
      · obtain ⟨first, parsed, loaded⟩ := bind_eq_ok loaded
        obtain ⟨others, rest, loaded⟩ := bind_eq_ok loaded
        cases loaded
        rcases List.mem_cons.mp member with rfl | later
        · exact Instruction.parse_written parsed
        · exact ih rest later
      · split at loaded
        · exact ih loaded member
        · cases loaded

/-- Every instruction of a program that has been loaded is what its line reads as. -/
theorem load_written (loaded : Program.load code = .ok p) (found : p.at? n = some i) :
    i.Written := by
  unfold Program.load at loaded
  dsimp only at loaded
  split at loaded
  · cases loaded
  · cases lines : loadLines false ((Text.lines code.toList).zipIdx 1) with
    | error f =>
      rw [lines] at loaded
      cases loaded
    | ok is =>
      rw [lines] at loaded
      cases loaded
      unfold at? at found
      split at found
      · cases found
      · have member := Array.mem_of_getElem? found
        exact loadLines_written lines (List.mem_toArray.mp member)

/-- No constant of a program that has been loaded lacks a value. -/
theorem load_constants (loaded : Program.load code = .ok p) (found : p.at? n = some i) :
    Operand.constant .none ∉ i.operands := by
  intro member
  have all := (load_written loaded found).operands
  have parsed : Except.ok (.constant .none) ∈ i.words.map Operand.parse :=
    all ▸ List.mem_map.mpr ⟨_, member, rfl⟩
  obtain ⟨w, -, read⟩ := List.mem_map.mp parsed
  cases Operand.parse_reads read with
  | constant v some _ => exact some rfl

end Program
end TacBench
