import TacBench.Proofs.SourceLines

/-! Which line is to blame when a code does not load. Lines are taken in order, and the first one
that cannot stand where it does ends the loading. The error names this line by its number, whatever
is wrong with it; only a command that does not exist is reported on the text of the line in place of
the number. -/
namespace TacBench

open Text

namespace Program

open Code

variable {started : Bool} {raw line : List Char} {words ws : List (List Char)} {n k : Nat}
  {f : LoadFault} {cause : Cause} {ls before after : List (List Char)} {code : String}
  {e : Code.Error}

/-- What can stand on a line: nothing but a comment; the header, if nothing stands before it; behind
the header a command with as many operands as it takes. -/
inductive Accepted : Bool → List (List Char) → Prop where
  | empty (started : Bool) : Accepted started []
  | header : Accepted false [header.toList]
  | instruction {command : List Char} {ws : List (List Char)} {opcode : Opcode}
      (known : Opcode.ofName? (String.ofList (upper command)) = some opcode)
      (count : opcode.arity = ws.length)
      (operands : ∀ w ∈ ws, ∃ o, Operand.parse (String.ofList w) = .ok o) :
      Accepted true (command :: ws)

/-- What is wrong with the words of a line. An operand is looked at after those behind it. -/
inductive Defect : Bool → List (List Char) → Cause → Prop where
  | headless {ws : List (List Char)} (some : ws ≠ []) (other : ws ≠ [header.toList]) :
      Defect false ws .missingHeader
  | unknown {command : List Char} {ws : List (List Char)}
      (unknown : Opcode.ofName? (String.ofList (upper command)) = none) :
      Defect true (command :: ws) .unknownInstruction
  | miscounted {command : List Char} {ws : List (List Char)} {opcode : Opcode}
      (known : Opcode.ofName? (String.ofList (upper command)) = some opcode)
      (count : opcode.arity ≠ ws.length) : Defect true (command :: ws) .operandCount
  | invalid {command w : List Char} {front back : List (List Char)} {opcode : Opcode}
      (known : Opcode.ofName? (String.ofList (upper command)) = some opcode)
      (count : opcode.arity = (front ++ w :: back).length)
      (refused : Operand.parse (String.ofList w) = .error .invalid)
      (behind : ∀ v ∈ back, ∃ o, Operand.parse (String.ofList v) = .ok o) :
      Defect true (command :: (front ++ w :: back)) .invalidOperand

theorem Defect.not_accepted (defect : Defect started words cause) : ¬ Accepted started words := by
  intro accepted
  cases defect with
  | headless some other =>
    cases accepted with
    | empty => exact some rfl
    | header => exact other rfl
  | unknown unknown =>
    cases accepted with
    | instruction known _ _ => cases unknown.symm.trans known
  | miscounted known count =>
    cases accepted with
    | instruction known' count' _ =>
      cases known.symm.trans known'
      exact count count'
  | invalid known count refused behind =>
    cases accepted with
    | instruction _ _ operands =>
      obtain ⟨o, parsed⟩ := operands _ (List.mem_append_right _ List.mem_cons_self)
      cases refused.symm.trans parsed

theorem Defect.ne_invalidLine (defect : Defect started words cause) : cause ≠ .invalidLine := by
  cases defect <;> exact nofun

/-- What is reported of a line. -/
def report (cause : Cause) (n : Nat) (line : String) : Code.Error :=
  if cause = .unknownInstruction then { cause, place := .text line } else ⟨cause, .number n, line⟩

/-- The line cannot stand where it does. If the language has an error for that, it is the one
reported. -/
structure Refused (started : Bool) (raw : List Char) (n : Nat) (f : LoadFault) : Prop where
  unacceptable : ¬ Accepted started (tokens raw)
  reported : ∀ e, f = .rejected e →
    ∃ cause, Defect started (tokens raw) cause ∧
      e = report cause n (String.ofList (significant raw))

theorem operand_of_parseOperands {os : List Operand} {w : List Char}
    (read : Instruction.parseOperands (ws.map String.ofList) = .ok os) (member : w ∈ ws) :
    ∃ o, Operand.parse (String.ofList w) = .ok o := by
  have parsed : Operand.parse (String.ofList w) ∈ os.map Except.ok := by
    rw [← Instruction.parseOperands_ok read]
    exact List.mem_map_of_mem (List.mem_map_of_mem member)
  obtain ⟨o, -, same⟩ := List.mem_map.mp parsed
  exact ⟨o, same.symm⟩

/-- The last operand that cannot be read decides. -/
theorem parseOperands_error {f : Operand.Fault}
    (failed : Instruction.parseOperands (ws.map String.ofList) = .error f) :
    ∃ front w back, ws = front ++ w :: back ∧ Operand.parse (String.ofList w) = .error f ∧
      ∀ v ∈ back, ∃ o, Operand.parse (String.ofList v) = .ok o := by
  induction ws with
  | nil => cases failed
  | cons w ws ih =>
    rw [List.map_cons, Instruction.parseOperands] at failed
    cases rest : Instruction.parseOperands (ws.map String.ofList) with
    | error g =>
      rw [rest] at failed
      cases failed
      obtain ⟨front, v, back, rfl, refused, behind⟩ := ih rest
      exact ⟨w :: front, v, back, rfl, refused, behind⟩
    | ok os =>
      rw [rest] at failed
      cases first : Operand.parse (String.ofList w) with
      | error g =>
        rw [first] at failed
        cases failed
        exact ⟨[], w, ws, rfl, first, fun v member => operand_of_parseOperands rest member⟩
      | ok o =>
        rw [first] at failed
        cases failed

theorem accepted_of_parse {line : String} {index : Int} {i : Instruction}
    (parsed : Instruction.parse line index = .ok i) : Accepted true (fields line.toList) := by
  unfold Instruction.parse at parsed
  split at parsed
  · cases parsed
  · rename_i command ws split_
    split at parsed
    · cases parsed
    · rename_i opcode known
      split at parsed
      · cases parsed
      · rename_i count
        split at parsed
        · rename_i os read
          rw [split_]
          exact .instruction known (Decidable.not_not.mp count) fun w =>
            operand_of_parseOperands read
        · cases parsed
        · cases parsed
        · cases parsed

/-- A line that is no instruction is refused for what is wrong with it. -/
theorem refused_of_parse (some : tokens raw ≠ [])
    (failed : Instruction.parse (String.ofList (significant raw)) n = .error f) :
    Refused true raw n f := by
  have same : fields (String.ofList (significant raw)).toList = tokens raw := by
    rw [String.toList_ofList, fields_significant]
  have told {cause : Cause} (defect : Defect true (tokens raw) cause)
      (same : f = .rejected (report cause n (String.ofList (significant raw)))) :
      Refused true raw n f := by
    refine ⟨defect.not_accepted, fun e rejected => ⟨cause, defect, ?_⟩⟩
    exact LoadFault.rejected.inj (rejected.symm.trans same)
  unfold Instruction.parse at failed
  rw [same] at failed
  split at failed
  · rename_i empty
    exact absurd empty some
  · rename_i command ws parts
    rw [parts] at told
    split at failed
    · rename_i unknown
      cases failed
      exact told (.unknown unknown) rfl
    · rename_i opcode known
      split at failed
      · rename_i count
        cases failed
        exact told (.miscounted known count) rfl
      · rename_i count
        have unreadable {g : Operand.Fault}
          (read : Instruction.parseOperands (ws.map String.ofList) = .error g) :
            ¬ Accepted true (tokens raw) := by
          rw [parts]
          intro accepted
          cases accepted with
          | instruction _ _ operands =>
            obtain ⟨front, w, back, rfl, refused, -⟩ := parseOperands_error read
            obtain ⟨o, parsed⟩ := operands w (List.mem_append_right _ List.mem_cons_self)
            cases refused.symm.trans parsed
        split at failed
        · cases failed
        · rename_i read
          cases failed
          obtain ⟨front, w, back, rfl, refused, behind⟩ := parseOperands_error read
          exact told (.invalid known (Decidable.not_not.mp count) refused behind) rfl
        · rename_i read
          cases failed
          exact ⟨unreadable read, nofun⟩
        · rename_i read
          cases failed
          exact ⟨unreadable read, nofun⟩

/-- Whether the header is behind a line, if all lines up to it are accepted: it is the first line
with words. -/
def begun (started : Bool) (before : List (List Char)) : Bool :=
  started || before.any fun raw => !(tokens raw).isEmpty

/-- All lines can stand where they do. -/
def AllAccepted : Bool → List (List Char) → Prop
  | _, [] => True
  | started, raw :: rest => Accepted started (tokens raw) ∧ AllAccepted (begun started [raw]) rest

theorem begun_cons (started : Bool) (raw : List Char) (before : List (List Char)) :
    begun started (raw :: before) = begun (begun started [raw]) before := by
  simp [begun, Bool.or_assoc]

theorem begun_of_words (some : tokens raw ≠ []) : begun started [raw] = true := by
  simp [begun, some]

theorem begun_of_empty (empty : tokens raw = []) : begun started [raw] = started := by
  simp [begun, empty]

/-- Loading fails at the first line that cannot stand where it does. -/
theorem loadLines_error (failed : loadLines started (ls.zipIdx k) = .error f) :
    ∃ before raw after, ls = before ++ raw :: after ∧ AllAccepted started before ∧
      Refused (begun started before) raw (k + before.length) f := by
  induction ls generalizing started k with
  | nil => cases failed
  | cons raw rest ih =>
    have here (refused : Refused started raw k f) : ∃ before line after,
        raw :: rest = before ++ line :: after ∧ AllAccepted started before ∧
          Refused (begun started before) line (k + before.length) f :=
      ⟨[], raw, rest, rfl, trivial, by simpa [begun] using refused⟩
    have behind (accepted : Accepted started (tokens raw))
        (failed : loadLines (begun started [raw]) (rest.zipIdx (k + 1)) = .error f) :
        ∃ before line after, raw :: rest = before ++ line :: after ∧ AllAccepted started before ∧
          Refused (begun started before) line (k + before.length) f := by
      obtain ⟨before, line, after, rfl, all, refused⟩ := ih failed
      refine ⟨raw :: before, line, after, rfl, ⟨accepted, all⟩, ?_⟩
      rwa [begun_cons, List.length_cons, ← Nat.add_assoc, Nat.add_right_comm]
    rw [List.zipIdx_cons] at failed
    by_cases empty : tokens raw = []
    · rw [loadLines_skip empty] at failed
      refine behind ?_ ?_
      · rw [empty]
        exact .empty started
      · rwa [begun_of_empty empty]
    · have begins : begun started [raw] = true := begun_of_words empty
      cases started with
      | true =>
        rw [loadLines_instruction empty] at failed
        cases parsed : Instruction.parse (String.ofList (significant raw)) k with
        | error g =>
          rw [parsed] at failed
          cases failed
          exact here (refused_of_parse empty parsed)
        | ok i =>
          rw [parsed] at failed
          have accepted := accepted_of_parse parsed
          rw [String.toList_ofList, fields_significant] at accepted
          refine behind accepted ?_
          rw [begins]
          cases later : loadLines true (rest.zipIdx (k + 1)) with
          | error g =>
            rw [later] at failed
            exact failed
          | ok is =>
            rw [later] at failed
            cases failed
      | false =>
        by_cases single : tokens raw = [header.toList]
        · rw [loadLines_header single] at failed
          refine behind ?_ ?_
          · rw [single]
            exact .header
          · rwa [begins]
        · rw [loadLines_headless empty single] at failed
          cases failed
          have defect : Defect false (tokens raw) .missingHeader := .headless empty single
          refine here ⟨defect.not_accepted, fun e rejected => ⟨.missingHeader, defect, ?_⟩⟩
          exact (LoadFault.rejected.inj rejected).symm

/-- Line `n` of a code is the first one that cannot stand where it does. The flag says whether the
header stands before it. -/
inductive Culprit (code : String) : Nat → Bool → List Char → Prop where
  | line {before after : List (List Char)} {raw : List Char}
      (parts : lines code.toList = before ++ raw :: after) (accepted : AllAccepted false before)
      (unacceptable : ¬ Accepted (begun false before) (tokens raw)) :
      Culprit code (before.length + 1) (begun false before) raw

theorem first_unique {before' after' : List (List Char)} {raw' : List Char}
    (same : before ++ raw :: after = before' ++ raw' :: after')
    (accepted : AllAccepted started before) (accepted' : AllAccepted started before')
    (unacceptable : ¬ Accepted (begun started before) (tokens raw))
    (unacceptable' : ¬ Accepted (begun started before') (tokens raw')) :
    before = before' ∧ raw = raw' := by
  induction before generalizing started before' with
  | nil =>
    cases before' with
    | nil => exact ⟨rfl, (List.cons.inj same).1⟩
    | cons line before' =>
      obtain ⟨rfl, -⟩ := List.cons.inj same
      have fails : ¬ Accepted started (tokens raw) := by simpa [begun] using unacceptable
      exact absurd accepted'.1 fails
  | cons line before ih =>
    cases before' with
    | nil =>
      obtain ⟨rfl, -⟩ := List.cons.inj same
      have fails : ¬ Accepted started (tokens line) := by simpa [begun] using unacceptable'
      exact absurd accepted.1 fails
    | cons line' before' =>
      obtain ⟨rfl, rest⟩ := List.cons.inj same
      rw [begun_cons] at unacceptable unacceptable'
      obtain ⟨rfl, rfl⟩ := ih rest accepted.2 accepted'.2 unacceptable unacceptable'
      exact ⟨rfl, rfl⟩

theorem Culprit.unique {n' : Nat} {started' : Bool} {raw' : List Char}
    (first : Culprit code n started raw) (second : Culprit code n' started' raw') :
    n = n' ∧ started = started' ∧ raw = raw' := by
  obtain ⟨parts, accepted, unacceptable⟩ := first
  obtain ⟨parts', accepted', unacceptable'⟩ := second
  obtain ⟨rfl, rfl⟩ := first_unique (parts.symm.trans parts') accepted accepted' unacceptable
    unacceptable'
  exact ⟨rfl, rfl, rfl⟩

/-- A code that does not load has a first line that is to blame. -/
theorem culprit_of_load (written : code.toList.all isBlank = false)
    (failed : load code = .error f) :
    ∃ n started raw, Culprit code n started raw ∧ Refused started raw n f := by
  have lines_failed : loadLines false ((lines code.toList).zipIdx 1) = .error f := by
    unfold load at failed
    rw [if_neg (by simp [written])] at failed
    cases loaded : loadLines false ((lines code.toList).zipIdx 1) with
    | error g =>
      rw [loaded] at failed
      cases failed
      rfl
    | ok is =>
      rw [loaded] at failed
      cases failed
  obtain ⟨before, raw, after, parts, accepted, refused⟩ := loadLines_error lines_failed
  rw [Nat.add_comm] at refused
  exact ⟨_, _, raw, .line parts accepted refused.unacceptable, refused⟩

/-- How a message about a line begins. -/
def subject : Cause → String
  | .unknownInstruction => "Unknown instruction"
  | .invalidOperand => "Invalid operand"
  | .operandCount => "Invalid count of operands"
  | .missingHeader => "Missing .IFJcode17 header"
  | .invalidLine => "Invalid line"

theorem message_of_line {cause : Cause} (located : cause ≠ .invalidLine) (n : Nat) (line : String) :
    Error.message ⟨cause, .number n, line⟩ = subject cause ++ " on line " ++ toString n ++
      if cause = .missingHeader then "." else ": " ++ line ++ "." := by
  have shown : (Place.number n).shown = toString n := rfl
  have plain (s : String) : toString s = s := rfl
  cases cause with
  | invalidLine => exact absurd rfl located
  | unknownInstruction | invalidOperand | operandCount | missingHeader =>
    simp [Error.message, subject, shown, shownLine, plain, String.append_assoc]

theorem message_of_text (line : String) :
    Error.message { cause := .unknownInstruction, place := .text line } =
      "Unknown instruction on line " ++ line ++ ": None." := by
  have plain (s : String) : toString s = s := rfl
  simp [Error.message, Place.shown, shownLine, plain, String.append_assoc]

/-- The line that is to blame when a code does not load: the first that cannot stand where it does.
The error tells what is wrong with it and names it, by its number and its text. Only if the command
is unknown, the text stands in the place of the number, and no line in the place of the text. -/
theorem load_error_names_culprit (code : String) (e : Code.Error)
    (written : code.toList.all isBlank = false) (rejected : load code = .error (.rejected e)) :
    (∃ n started raw, Culprit code n started raw) ∧
    ∀ n started raw, Culprit code n started raw →
      let line := String.ofList (significant raw)
      Defect started (tokens raw) e.cause ∧
      (e.cause ≠ .unknownInstruction → e.place = .number n ∧ e.line = some line ∧
        e.message = subject e.cause ++ " on line " ++ toString n ++
          if e.cause = .missingHeader then "." else ": " ++ line ++ ".") ∧
      (e.cause = .unknownInstruction → e.place = .text line ∧ e.line = none ∧
        e.message = "Unknown instruction on line " ++ line ++ ": None.") := by
  obtain ⟨n, started, raw, culprit, refused⟩ := culprit_of_load written rejected
  refine ⟨⟨n, started, raw, culprit⟩, fun n' started' raw' other => ?_⟩
  obtain ⟨rfl, rfl, rfl⟩ := culprit.unique other
  obtain ⟨cause, defect, rfl⟩ := refused.reported e rfl
  intro line
  by_cases unknown : cause = .unknownInstruction
  · have told : report cause n line = { cause := .unknownInstruction, place := .text line } := by
      rw [unknown]
      rfl
    rw [told]
    refine ⟨unknown ▸ defect, fun other => absurd rfl other,
      fun _ => ⟨rfl, rfl, message_of_text line⟩⟩
  · have told : report cause n line = ⟨cause, .number n, line⟩ := if_neg unknown
    rw [told]
    exact ⟨defect, fun _ => ⟨rfl, rfl, message_of_line defect.ne_invalidLine n line⟩,
      fun same => absurd same unknown⟩

theorem allAccepted_of_empty {gap : List (List Char)} (empty : ∀ l ∈ gap, tokens l = [])
    (started : Bool) :
    AllAccepted started gap := by
  induction gap generalizing started with
  | nil => trivial
  | cons l gap ih =>
    have first := empty l List.mem_cons_self
    refine ⟨?_, ih (fun line member => empty line (List.mem_cons_of_mem l member)) _⟩
    rw [first]
    exact .empty started

/-- A line with a defect is to blame if nothing but comments stands between the header and it. -/
theorem culprit_of_defect {gap : List (List Char)} (empty : ∀ l ∈ gap, tokens l = [])
    (parts : lines code.toList = header.toList :: (gap ++ raw :: after))
    (defect : Defect true (tokens raw) cause) :
    Culprit code (gap.length + 2) true raw := by
  have first : tokens header.toList = [header.toList] := by decide +kernel
  have started : begun false (header.toList :: gap) = true := by simp [begun, first]
  have accepted : AllAccepted false (header.toList :: gap) := by
    refine ⟨?_, allAccepted_of_empty empty _⟩
    rw [first]
    exact .header
  rw [← started] at defect ⊢
  exact .line parts accepted defect.not_accepted

/-- A code whose fourth line lacks an operand. -/
def operandMissing : String := ".IFJcode17\n\n# comment\nMOVE GF@a # target\nFOO\n"

theorem operandMissing_named :
    operandMissing.toList.all isBlank = false ∧
    load operandMissing = .error (.rejected ⟨.operandCount, .number 4, some "MOVE GF@a"⟩) ∧
    Culprit operandMissing 4 true "MOVE GF@a # target".toList ∧
    Error.message ⟨.operandCount, .number 4, some "MOVE GF@a"⟩ =
      "Invalid count of operands on line 4: MOVE GF@a." := by
  have written : operandMissing.toList.all isBlank = false := by decide +kernel
  have rejected : load operandMissing =
      .error (.rejected ⟨.operandCount, .number 4, some "MOVE GF@a"⟩) := by rfl
  have culprit : Culprit operandMissing 4 true "MOVE GF@a # target".toList := by
    have known : Opcode.ofName? (String.ofList (upper "MOVE".toList)) =
        some .move := by decide +kernel
    have words : tokens "MOVE GF@a # target".toList =
        ["MOVE".toList, "GF@a".toList] := by decide +kernel
    have empty : ∀ l ∈ [[], "# comment".toList], tokens l = [] := by decide +kernel
    have parts : lines operandMissing.toList =
        header.toList :: ([[], "# comment".toList] ++ "MOVE GF@a # target".toList ::
          ["FOO".toList]) := by
      decide +kernel
    have defect : Defect true (tokens "MOVE GF@a # target".toList) .operandCount := by
      rw [words]
      exact .miscounted known (by decide)
    exact culprit_of_defect empty parts defect
  obtain ⟨-, named⟩ := load_error_names_culprit operandMissing _ written rejected
  obtain ⟨-, numbered, -⟩ := named 4 true _ culprit
  exact ⟨written, rejected, culprit, (numbered nofun).2.2⟩

/-- The second line has an unknown command. The error should name line 2 and calls it line `FOO`. -/
theorem unknown_command_unnumbered :
    Culprit ".IFJcode17\nFOO\n" 2 true "FOO".toList ∧
    load ".IFJcode17\nFOO\n" = .error (.rejected ⟨.unknownInstruction, .text "FOO", none⟩) ∧
    Error.message ⟨.unknownInstruction, .text "FOO",
      none⟩ = "Unknown instruction on line FOO: None." := by
  refine ⟨?_, by rfl, by decide +kernel⟩
  have unknown : Opcode.ofName? (String.ofList (upper "FOO".toList)) = none := by decide +kernel
  have words : tokens "FOO".toList = ["FOO".toList] := by decide +kernel
  have parts : lines ".IFJcode17\nFOO\n".toList = header.toList ::
      ([] ++ "FOO".toList :: []) := by decide +kernel
  have defect : Defect true (tokens "FOO".toList) .unknownInstruction := by
    rw [words]
    exact .unknown unknown
  exact culprit_of_defect (List.forall_mem_nil _) parts defect

end Program
end TacBench
