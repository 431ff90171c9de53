import Mathlib.Data.List.TakeWhile
import TacBench.Proofs.Declarations
import TacBench.Proofs.InputLines
import TacBench.Proofs.Numerals

/-! What the input command makes of a line. A line gives a value of the wanted type unless it is
empty where a text is wanted, does not begin with a digit where a decimal is wanted, or begins with
a truth value that is spelled with a long s. What a program prints is read back, but for the sign of
a negative number. -/
namespace TacBench

/-- The kind of the values of a data type. -/
def DataType.kind : DataType → Kind
  | .bool => .bool
  | .int => .int
  | .float => .float
  | .string => .str

namespace Machine

variable {m m' : Machine} {f : FrameRef} {name : String} {d : Frame} {type : DataType}
  {h : Nat} {v : Value} {i : Instruction} {s : List Char}

/-- The line that is taken next, without the blanks around it. -/
def nextLine (m : Machine) : List Char := Text.strip (Text.takeLine m.input).1

/-- The value that is made of a line. -/
def valueOf : DataType → List Char → Except Fault Value
  | .string, s => if s.isEmpty then .error (.value .indexRange)
      else .ok (.str (Text.ofChars (quotedInput s)))
  | .int, s => .ok (.int (integerInput s))
  | .float, s =>
    match decimalInput? s with
    | none => .error .noDecimal
    | some d => .ok (.float ((Binary64.ofText? d).getD Binary64.zero))
  | .bool, s => .ok (truthInput s)

/-- Lines that give a value of the type. -/
def Legible : DataType → List Char → Prop
  | .string, s => s ≠ []
  | .int, _ => True
  | .float, s => ∃ c rest, s = c :: rest ∧ Text.isDecimal c = true
  | .bool, s => ¬ LongFalse s

theorem decimalInput?_eq_none : decimalInput? s = none ↔ ¬ Legible .float s := by
  unfold decimalInput? Legible
  cases s with
  | nil => simp
  | cons c rest =>
    by_cases digit : Text.isDecimal c = true
    · rw [List.takeWhile_cons_of_pos digit]
      refine iff_of_false ?_ fun none => none ⟨c, rest, rfl, digit⟩
      dsimp only
      split
      all_goals
        split
        · exact Option.some_ne_none _
        · split <;> exact Option.some_ne_none _
    · rw [List.takeWhile_cons_of_neg digit]
      refine iff_of_true rfl ?_
      rintro ⟨_, _, ⟨⟩, other⟩
      exact digit other

theorem truthInput_kind (s : List Char) : truthInput s = .none ∨ (truthInput s).kind = .bool := by
  unfold truthInput
  split
  · exact .inr rfl
  · split
    · split
      · exact .inr rfl
      · exact .inl rfl
    · exact .inr rfl

/-- A legible line gives a value of the wanted type. -/
theorem valueOf_of_legible (legible : Legible type s) :
    ∃ v, valueOf type s = .ok v ∧ v.kind = type.kind := by
  cases type with
  | string => exact ⟨_, if_neg (by simpa [Legible] using legible), rfl⟩
  | int => exact ⟨_, rfl, rfl⟩
  | float =>
    have found : decimalInput? s ≠ none := fun none => decimalInput?_eq_none.mp none legible
    obtain ⟨d, found⟩ := Option.ne_none_iff_exists'.mp found
    exact ⟨.float ((Binary64.ofText? d).getD Binary64.zero), by rw [valueOf, found], rfl⟩
  | bool =>
    refine ⟨_, rfl, (truthInput_kind s).resolve_left fun missing => ?_⟩
    exact legible (truthInput_eq_none.mp missing)

/-- Any other line gives a fault, or the missing value in the place of a truth value. -/
theorem valueOf_of_not_legible (illegible : ¬ Legible type s) :
    type = .string ∧ valueOf type s = .error (.value .indexRange) ∨
    type = .float ∧ valueOf type s = .error .noDecimal ∨ type = .bool ∧
    valueOf type s = .ok .none := by
  cases type with
  | string => exact .inl ⟨rfl, if_pos (by simpa [Legible] using illegible)⟩
  | int => exact absurd trivial illegible
  | float =>
    refine .inr (.inl ⟨rfl, ?_⟩)
    rw [valueOf, decimalInput?_eq_none.mpr illegible]
  | bool =>
    refine .inr (.inr ⟨rfl, ?_⟩)
    rw [valueOf, truthInput_eq_none.mpr (not_not.mp illegible)]

/-- The input command takes the next line, and assigns what is made of it. -/
theorem readInput_run (m : Machine) (target : Source) (type : DataType) :
    (readInput target (.operand (.dataType type))).run m =
      (ofExcept (valueOf type m.nextLine) >>= fun v => assign target (.value v)).run
      (m.prepared 0 0 true) := by
  change (readLine >>= _).run m = _
  have line : readLine.run m = .ok m.nextLine (m.prepared 0 0 true) := rfl
  rw [EStateM.run_bind, line]
  dsimp only
  cases type with
  | string =>
    rw [valueOf]
    dsimp only
    split <;> rfl
  | int => rfl
  | float =>
    rw [valueOf]
    dsimp only
    cases decimalInput? m.nextLine with
    | none => rfl
    | some d =>
      dsimp only
      cases Binary64.ofText? d <;> rfl
  | bool => rfl

theorem readInput_of_ok (made : valueOf type m.nextLine = .ok v) (target : Source) :
    (readInput target (.operand (.dataType type))).run m =
      (assign target (.value v)).run (m.prepared 0 0 true) := by
  rw [readInput_run, made]
  rfl

theorem readInput_of_error {e : Fault} (failed : valueOf type m.nextLine = .error e)
    (target : Source) :
    (readInput target (.operand (.dataType type))).run m = .error e (m.prepared 0 0 true) := by
  rw [readInput_run, failed]
  rfl

/-- The value that the frame at a position has for a name. -/
def valueAt (m : Machine) (h : Nat) (name : String) : Option Value :=
  m.frames[h]?.bind (·.find? name)

/-- One variable is given a value, and no other is touched. -/
structure Stores (m m' : Machine) (h : Nat) (name : String) (v : Value) : Prop where
  stored : valueAt m' h name = some v
  others : ∀ k n, k ≠ h ∨ n ≠ name → valueAt m' k n = valueAt m k n

theorem stores_of_frames (there : m.frames[h]? = some d)
    (after : m'.frames = m.frames.set h (d.insert name v)) :
    Stores m m' h name v := by
  obtain ⟨bound, -⟩ := List.getElem?_eq_some_iff.mp there
  have own : m'.frames[h]? = some (d.insert name v) := by rw [after, List.getElem?_set_self bound]
  constructor
  · rw [valueAt, own, Option.bind_some, Dictionary.find?_insert, if_pos rfl]
  · intro k n other
    by_cases same : k = h
    · subst same
      have differ : name ≠ n := fun same => other.elim (fun far => far rfl) fun far => far same.symm
      rw [valueAt, own, valueAt, there, Option.bind_some, Option.bind_some, Dictionary.find?_insert,
        if_neg differ]
    · rw [valueAt, after, List.getElem?_set_ne (Ne.symm same), valueAt]

section Declared

variable (found : frameOf m f.kind = .ok (some d)) (declared : d.contains name = true)
include found declared

theorem assignable_of_declared (v : Value) : assignable m f name v = .ok () := by
  rw [assignable, found]
  simp [declared]

/-- A value that is assigned to a variable that has been declared is stored. -/
theorem assign_declared (v : Value) : ∃ h m', m.position? f.kind = some h ∧
    (assign (.operand (.var f name)) (.value v)).run (m.prepared 0 0 true) = .ok () m' ∧
    Stores m m' h name v := by
  obtain ⟨h, placed, there, stores⟩ := frames_of_frameOf found
  have accepted : assignable (m.prepared 0 0 true) f name v = .ok () := by
    rw [(prepared_frames m 0 0 true).assignable, assignable_of_declared found declared]
  refine ⟨h, (storeIn f.kind name v (m.prepared 0 0 true)).charged variablePrice, placed, ?_, ?_⟩
  · rw [assign_value_run, accepted]
  · have same := (prepared_frames m 0 0 true).stored f.kind name v
    exact stores_of_frames there ((same.trans ⟨rfl, rfl, rfl⟩).frames.trans (stores name v))

variable (opcode : i.opcode = .read) (operands : i.operands = [.var f name, .dataType type])
include opcode operands

theorem execute_read_of_ok (made : valueOf type m.nextLine = .ok v) :
    ∃ h m', m.position? f.kind = some h ∧
    (execute i).run m = .ok () m' ∧ Stores m m' h name v := by
  obtain ⟨h, m', placed, assigned, stores⟩ := assign_declared found declared v
  refine ⟨h, account i m', placed, execute_ok.mpr ⟨m', ?_, rfl⟩, stores.stored, stores.others⟩
  rw [opcode, operands]
  exact (readInput_of_ok made _).trans assigned

omit found declared in
theorem execute_read_of_error {e : Fault} (failed : valueOf type m.nextLine = .error e) :
    (execute i).run m = .error e (m.prepared 0 0 true) := by
  rw [execute_error, opcode, operands]
  exact readInput_of_error failed _

/-- The input command stores a value of the wanted type in its variable and touches no other,
exactly if the line is legible. It stops at an empty line that should give a text and at a line that
should give a decimal and begins with no digit; a truth value that is spelled with a long s leaves
the variable without a value. -/
theorem read_succeeds_iff_legible : ∃ h, m.position? f.kind = some h ∧
    (Legible type m.nextLine →
      ∃ m' v, (execute i).run m = .ok () m' ∧ v.kind = type.kind ∧ Stores m m' h name v) ∧
    (¬ Legible type m.nextLine →
      type = .string ∧ (execute i).run m = .error (.value .indexRange) (m.prepared 0 0 true) ∨
      type = .float ∧ (execute i).run m = .error .noDecimal (m.prepared 0 0 true) ∨
      type = .bool ∧ ∃ m', (execute i).run m = .ok () m' ∧ Stores m m' h name .none) := by
  obtain ⟨h, placed, -⟩ := frames_of_frameOf found
  have ran {v : Value} (made : valueOf type m.nextLine = .ok v) :
      ∃ m', (execute i).run m = .ok () m' ∧ Stores m m' h name v := by
    obtain ⟨k, m', placed', ran, stores⟩ := execute_read_of_ok found declared opcode operands made
    cases placed.symm.trans placed'
    exact ⟨m', ran, stores⟩
  refine ⟨h, placed, fun legible => ?_, fun illegible => ?_⟩
  · obtain ⟨v, made, kind⟩ := valueOf_of_legible legible
    obtain ⟨m', ran, stores⟩ := ran made
    exact ⟨m', v, ran, kind, stores⟩
  · rcases valueOf_of_not_legible illegible with ⟨text, failed⟩ | ⟨decimal,
      failed⟩ | ⟨truth, missing⟩
    · exact .inl ⟨text, execute_read_of_error opcode operands failed⟩
    · exact .inr (.inl ⟨decimal, execute_read_of_error opcode operands failed⟩)
    · exact .inr (.inr ⟨truth, ran missing⟩)

end Declared

/-- Two variables, and a line to be read. -/
def beforeLine (line : String) : Machine where
  globals := [("x", .int 7), ("y", .bool true)]
  input := line.toList

def readX (type : DataType) : Instruction :=
  ⟨.read, [.var ⟨.globals, true, true⟩ "x", .dataType type], 2, "READ GF@x " ++ type.keyword⟩

/-- A decimal in foreign digits, with something behind it. -/
theorem foreignDigits_read : Legible .float (beforeLine " ٣.٥e rest\n").nextLine ∧
    ∃ m' v, (execute (readX .float)).run (beforeLine " ٣.٥e rest\n") = .ok () m' ∧ v.kind = .float ∧
      Stores (beforeLine " ٣.٥e rest\n") m' 0 "x" v := by
  have legible : Legible .float (beforeLine " ٣.٥e rest\n").nextLine :=
    ⟨'٣', ".٥e rest".toList, by decide +kernel, by decide⟩
  have found : frameOf (beforeLine " ٣.٥e rest\n") .globals = .ok (some (beforeLine "").globals) :=
    rfl
  have operands : (readX .float).operands = [.var ⟨.globals, true, true⟩ "x", .dataType .float] :=
    rfl
  obtain ⟨h, placed, reads, -⟩ := read_succeeds_iff_legible found (by decide) rfl operands
  cases placed
  exact ⟨legible, reads legible⟩

/-- An empty line is no text, letters are no decimal, and a truth value with a long s has no
value. -/
theorem illegible_lines_break :
    (execute (readX .string)).run (beforeLine "") = .error (.value .indexRange) (beforeLine "") ∧
    (execute (readX .float)).run (beforeLine "one") = .error .noDecimal (beforeLine "") ∧
    ∃ m', (execute (readX .bool)).run (beforeLine "falſe") = .ok () m' ∧
      valueAt m' 0 "x" = some .none :=
  ⟨rfl, rfl, _, rfl, rfl⟩

/-! Numbers and truth values as they are printed. -/

section Printed

variable {o : Operand} {text : Text}

/-- A number is printed with a sign or a blank before its digits. -/
theorem printed_int {n : Int} (few : (Nat.toDigits 10 n.natAbs).length ≤ Integer.digitLimit) :
    (Value.int n).printed =
      .ok (Text.ofChars ((if n < 0 then '-' else ' ') :: Nat.toDigits 10 n.natAbs)) := by
  have bounded {k : Nat} (some : 0 < k) (few : (Nat.toDigits 10 n.natAbs).length ≤ k) : n.natAbs <
      Nat.pow 10 k :=
    (Nat.length_toDigits_le_iff (by decide) some).mp few
  have shows : Integer.hasText n = true := decide_eq_true (bounded (by decide) few)
  rw [Value.printed, Value.text, if_pos shows]
  change Except.ok (if n < 0 then Text.ofString (Integer.text n) else " " ++
    Text.ofString (Integer.text n)) = _
  cases n with
  | ofNat k =>
    have digits : Integer.text (.ofNat k) = String.ofList (Nat.toDigits 10 k) :=
      Nat.repr_eq_ofList_toDigits
    have shown : Text.ofString (Integer.text (.ofNat k)) = Text.ofChars (Nat.toDigits 10 k) := by
      rw [digits, Text.ofString, String.toList_ofList]
    have positive : ¬ Int.ofNat k < 0 := Int.not_lt.mpr (Int.natCast_nonneg k)
    rw [if_neg positive, if_neg positive, shown]
    rfl
  | negSucc k =>
    have digits : Integer.text (.negSucc k) = "-" ++ String.ofList (Nat.toDigits 10 (k + 1)) := by
      rw [← Nat.repr_eq_ofList_toDigits]
      rfl
    have shown : Text.ofString (Integer.text (.negSucc k)) =
        Text.ofChars ('-' :: Nat.toDigits 10 (k + 1)) := by
      simp [digits, Text.ofString]
    have negative : Int.negSucc k < 0 := Int.negSucc_lt_zero k
    rw [if_pos negative, if_pos negative, shown]
    rfl

theorem printed_bool (b : Bool) :
    (Value.bool b).printed = .ok (Text.ofString (if b then "true" else "false")) := by
  cases b <;> rfl

/-- Writing leaves the text behind everything written before, also if it is interrupted. -/
theorem left_write (found : lookup m (.operand o) = .ok v) (shown : v.printed = .ok text) :
    (left (command .write [o]) m).written = (.out, text) :: m.written := by
  change (left (write (.operand o)) m).written = _
  have ran : (write (.operand o)).run m = (emit .out text).run
      (m.charged (readPrice (.operand o))) := by
    rw [write, EStateM.run_bind, read_run, found]
    dsimp only
    rw [EStateM.run_bind, shown]
    rfl
  have emitted : (emit .out text).run (m.charged (readPrice (.operand o))) =
      (if Channel.out = .out && m.interruptOn = some text then throw .interrupted
        else pure () : Exec Unit).run
        { m.charged (readPrice (.operand o)) with written := (.out, text) :: m.written } := rfl
  unfold left
  rw [ran, emitted]
  by_cases interrupted : (Channel.out = .out && m.interruptOn = some text) = true
  · rw [if_pos interrupted]
    rfl
  · rw [if_neg interrupted]
    rfl

/-- Writing the value always writes this text. -/
def Printed (v : Value) (text : List Char) : Prop :=
  ∀ (m : Machine) (o : Operand), lookup m (.operand o) = .ok v →
    (left (command .write [o]) m).written = (.out, Text.ofChars text) :: m.written

/-- Wherever this text is the next line of the input, reading it stores the value. -/
def ReadBack (text : List Char) (type : DataType) (v : Value) : Prop :=
  ∀ (m : Machine) (f : FrameRef) (name : String) (d : Frame) (i : Instruction),
    Text.inputLine m.input 0 = text → frameOf m f.kind = .ok (some d) → d.contains name = true →
    i.opcode = .read → i.operands = [.var f name, .dataType type] →
    ∃ h m', m.position? f.kind = some h ∧ (execute i).run m = .ok () m' ∧ Stores m m' h name v

theorem readBack_of_valueOf {line : List Char} (made : valueOf type (Text.strip line) = .ok v) :
    ReadBack line type v := by
  intro m f name d i first found declared opcode operands
  have next : m.nextLine = Text.strip line := by rw [nextLine, Text.strip_takeLine, first]
  exact execute_read_of_ok found declared opcode operands (next ▸ made)

theorem integerInput_toDigits {n : Nat} (few : (Nat.toDigits 10 n).length ≤ Integer.digitLimit) :
    integerInput (Nat.toDigits 10 n) = n := by
  have digits : (Nat.toDigits 10 n).takeWhile Text.isDecimal = Nat.toDigits 10 n := by
    refine List.takeWhile_eq_self_iff.mpr fun c member => ?_
    rw [Text.isDecimal, (Text.digit_of_mem_toDigits member).1]
    rfl
  rw [integerInput, digits, Integer.ofText_toDigits few]

theorem integerInput_minus (s : List Char) : integerInput ('-' :: s) = 0 := by
  have none : ('-' :: s).takeWhile Text.isDecimal = [] := List.takeWhile_cons_of_neg (by decide)
  rw [integerInput, none]
  rfl

/-- What is printed of a number or a truth value is read back as what it was, unless the number is
negative: a sign is no digit, and zero is read in its place. -/
theorem printed_read_back (n : Int) (b : Bool) :
    ((Nat.toDigits 10 n.natAbs).length ≤ 4300 → ∃ text, Printed (.int n) text ∧
      (0 ≤ n → ReadBack text .int (.int n)) ∧ (n < 0 → ReadBack text .int (.int 0))) ∧
    ∃ text, Printed (.bool b) text ∧ ReadBack text .bool (.bool b) := by
  constructor
  · intro few
    have unblank : ∀ c ∈ Nat.toDigits 10 n.natAbs, Text.isBlank c = false := fun c member =>
      (Text.digit_of_mem_toDigits member).2
    refine ⟨_, fun m o found => left_write found (printed_int few), fun positive => ?_,
      fun negative => ?_⟩
    · rw [if_neg (Int.not_lt.mpr positive)]
      have stripped : Text.strip (' ' :: Nat.toDigits 10 n.natAbs) = Nat.toDigits 10 n.natAbs := by
        rw [Text.strip, Text.stripBy, List.dropWhile_cons_of_pos (by decide)]
        exact Text.stripBy_of_none unblank
      refine readBack_of_valueOf ?_
      rw [stripped, valueOf, integerInput_toDigits few, Int.natAbs_of_nonneg positive]
    · rw [if_pos negative]
      have stripped : Text.strip ('-' :: Nat.toDigits 10 n.natAbs) = '-' ::
          Nat.toDigits 10 n.natAbs :=
        Text.stripBy_of_none (List.forall_mem_cons.mpr ⟨by decide, unblank⟩)
      refine readBack_of_valueOf ?_
      rw [stripped, valueOf, integerInput_minus]
  · refine ⟨_, fun m o found => left_write found (printed_bool b), readBack_of_valueOf ?_⟩
    cases b <;> decide +kernel

theorem twelve_read_back : (Nat.toDigits 10 (12 : Int).natAbs).length ≤ 4300 ∧
    (∃ text, Printed (.int 12) text ∧ ReadBack text .int (.int 12)) ∧
    ∃ text, Printed (.bool true) text ∧ ReadBack text .bool (.bool true) := by
  have few : (Nat.toDigits 10 (12 : Int).natAbs).length ≤ 4300 := by decide
  obtain ⟨number, truth⟩ := printed_read_back 12 true
  obtain ⟨text, printed, positive, -⟩ := number few
  exact ⟨few, ⟨text, printed, positive (by decide)⟩, truth⟩

/-- A negative number is not read back. -/
theorem minusTwelve_lost : (Nat.toDigits 10 (-12 : Int).natAbs).length ≤ 4300 ∧
    Printed (.int (-12)) "-12".toList ∧ ¬ ReadBack "-12".toList .int (.int (-12)) := by
  refine ⟨by decide, fun m o found => left_write found (by decide +kernel), fun back => ?_⟩
  obtain ⟨h, m', placed, ran, stores⟩ :=
    back (beforeLine "-12") ⟨.globals, true, true⟩ "x" _ (readX .int) (by decide +kernel) rfl
      (by decide) rfl rfl
  cases placed
  cases ran
  exact absurd stores.stored (by decide +kernel)

end Printed

end Machine
end TacBench
