import TacBench.Proofs.Loaded
import TacBench.Proofs.Phases
import TacBench.Proofs.Placement

/-! Where a jump leads. A jump to a name goes to the last label instruction with exactly that text
and to no other. Operands that are no names of labels, among them the keywords of types, are all
taken for one and the same label. -/
namespace TacBench

namespace Instruction

variable {i : Instruction} {t : String} {ws : List String} {o : Operand} {os : List Operand}

theorem Written.operand_of_word (written : i.Written) (words : i.words = t :: ws) :
    ∃ o os, i.operands = o :: os ∧ Operand.parse t = .ok o := by
  have all := written.operands
  rw [words, List.map_cons] at all
  obtain ⟨o, os, operands, parsed, -⟩ := List.map_eq_cons_iff.mp all.symm
  exact ⟨o, os, operands, parsed.symm⟩

theorem Written.word_of_operand (written : i.Written) (operands : i.operands = o :: os) :
    ∃ t ws, i.words = t :: ws ∧ Operand.parse t = .ok o := by
  have all := written.operands
  rw [operands, List.map_cons] at all
  obtain ⟨t, ws, words, parsed, -⟩ := List.map_eq_cons_iff.mp all
  exact ⟨t, ws, words, parsed⟩

end Instruction

namespace Program

variable {code : String} {p : Program} {l : Option String} {n : Int}

/-- A label instruction stands at a position, and this is the text of its label. -/
def LabelText (p : Program) (t : String) (n : Int) : Prop :=
  ∃ i ws, p.at? n = some i ∧ i.opcode = .label ∧ i.words = t :: ws

/-- The last of the label instructions whose texts are among the given ones. -/
structure LastLabel (p : Program) (texts : String → Prop) (n : Int) : Prop where
  here : ∃ t, texts t ∧ p.LabelText t n
  last : ∀ k t, texts t → p.LabelText t k → k ≤ n

theorem labelAt_iff (loaded : Program.load code = .ok p) :
    p.LabelAt l n ↔ ∃ t, Operand.labelName t = l ∧ p.LabelText t n := by
  constructor
  · rintro ⟨i, o, os, found, opcode, operands, rfl⟩
    obtain ⟨t, ws, words, parsed⟩ := (load_written loaded found).word_of_operand operands
    exact ⟨t, (Operand.labelOf_parse parsed).symm, i, ws, found, opcode, words⟩
  · rintro ⟨t, rfl, i, ws, found, opcode, words⟩
    obtain ⟨o, os, operands, parsed⟩ := (load_written loaded found).operand_of_word words
    exact ⟨i, o, os, found, opcode, operands, Operand.labelOf_parse parsed⟩

/-- The table of labels says which label instruction is the last one for a text. -/
theorem find?_labels_text (loaded : Program.load code = .ok p) {texts : String → Prop}
    (named : ∀ u, texts u ↔ Operand.labelName u = l) :
    match p.labels.find? l with
    | some n => p.LastLabel texts n
    | none => ∀ n t, texts t → ¬ p.LabelText t n := by
  cases found : p.labels.find? l with
  | none =>
    intro n t member label
    exact find?_labels_none found n ((labelAt_iff loaded).mpr ⟨t, (named t).mp member, label⟩)
  | some n =>
    obtain ⟨here, last⟩ := find?_labels_last found
    obtain ⟨t, name, label⟩ := (labelAt_iff loaded).mp here
    refine ⟨⟨t, (named t).mpr name, label⟩, fun k u member other => ?_⟩
    exact last k ((labelAt_iff loaded).mpr ⟨u, (named u).mp member, other⟩)

end Program

namespace Machine

variable {α : Type} {code : String} {p : Program} {m m' x : Machine} {i : Instruction} {o : Operand}
  {s : Source} {v : Value} {found : Option Int} {l : Option String}

/-- The instruction goes to its label now: without a condition, or because the condition holds. -/
def Heads (m : Machine) (i : Instruction) : Prop :=
  match i.opcode, i.operands with
  | .jump, _ => True
  | .call, _ => True
  | .jumpIf equal, [_, a, b] => ∃ l r, lookup m (.operand a) = .ok l ∧
      lookup m (.operand b) = .ok r ∧
      l.same r = equal
  | .jumpIfStack equal, _ => ∃ l r rest, m.stack = l :: r :: rest ∧
      (∃ t, l.text = .ok t) ∧ (∃ t, r.text = .ok t) ∧ l.same r = equal
  | _, _ => False

/-- A computation goes to the position that was found for a label, or reports the label. -/
def Seeks (computation : Exec Unit) (m : Machine) (l : Option String) (found : Option Int) : Prop :=
  Ends computation m (fun f _ => found = none ∧ f = .language (.unknownLabel l))
    fun _ m' => found = some m'.pc

theorem target_seeks {k : Int → Exec Unit} (o : Operand)
    (arrives : ∀ n, ∃ m', (k n).run m = .ok () m' ∧ m'.pc = n) :
    Seeks (target (.operand o) >>= k) m (Program.labelOf o)
    (m.labels.find? (Program.labelOf o)) := by
  have ran := target_run o m
  apply Ends.bind
  cases found : m.labels.find? (Program.labelOf o) with
  | none =>
    rw [found] at ran
    exact .of_error ran ⟨rfl, rfl⟩
  | some n =>
    rw [found] at ran
    obtain ⟨m', arrived, pc⟩ := arrives n
    exact .of_ok ran (.of_ok arrived (congrArg some pc.symm))

theorem jump_seeks (o : Operand) (m : Machine) :
    Seeks (jump (.operand o)) m (Program.labelOf o) (m.labels.find? (Program.labelOf o)) :=
  target_seeks o fun n => ⟨{ m with pc := n }, rfl, rfl⟩

theorem Seeks.read {k : Value → Exec Unit} (looked : lookup m s = .ok v)
    (next : Seeks (k v) (m.charged (readPrice s)) l found) :
    Seeks (Machine.read s >>= k) m l found := by
  have ran := read_run s m
  rw [looked] at ran
  exact Ends.bind (.of_ok ran next)

theorem Seeks.popValue {k : Value → Exec Unit} {rest : List Value} {t : Text}
    (held : m.stack = v :: rest) (shown : v.text = .ok t)
    (next : Seeks (k v) { m with stack := rest, operandPrice := m.operandPrice +
        stackPrice } l found) :
    Seeks (Machine.popValue >>= k) m l found := by
  have ran := popValue_run m
  rw [held] at ran
  simp only [shown] at ran
  exact Ends.bind (.of_ok ran next)

theorem jumpIf_seeks {a b : Source} {l r : Value} {equal : Bool} (left : lookup m a = .ok l)
    (right : lookup m b = .ok r) (agrees : l.same r = equal) (o : Operand) :
    Seeks (jumpIf (.operand o) a b equal) m (Program.labelOf o)
      (m.labels.find? (Program.labelOf o)) := by
  have frames : SameFrames m (m.charged (readPrice a)) := ⟨rfl, rfl, rfl⟩
  refine Seeks.read left (Seeks.read ((frames.lookup b).trans right) ?_)
  rw [if_pos agrees]
  exact jump_seeks o _

theorem command_seeks (heads : Heads m i) (written : i.Written) :
    ∃ o os, i.operands = o :: os ∧ Seeks (command i.opcode i.operands) m (Program.labelOf o)
      (m.labels.find? (Program.labelOf o)) := by
  have count := written.count
  unfold Heads at heads
  split at heads
  · rename_i opcode
    rw [opcode] at count ⊢
    obtain ⟨o, operands⟩ := List.length_eq_one_iff.mp count
    rw [operands]
    exact ⟨o, [], rfl, jump_seeks o m⟩
  · rename_i opcode
    rw [opcode] at count ⊢
    obtain ⟨o, operands⟩ := List.length_eq_one_iff.mp count
    rw [operands]
    exact ⟨o, [], rfl, target_seeks o fun n =>
      ⟨{ m with pc := n, calls := m.pc :: m.calls }, rfl, rfl⟩⟩
  · rename_i equal o a b opcode operands
    obtain ⟨l, r, left, right, agrees⟩ := heads
    rw [opcode, operands]
    exact ⟨o, [a, b], rfl, jumpIf_seeks left right agrees o⟩
  · rename_i equal _ opcode
    obtain ⟨l, r, rest, held, ⟨_, left⟩, ⟨_, right⟩, agrees⟩ := heads
    rw [opcode] at count ⊢
    obtain ⟨o, operands⟩ := List.length_eq_one_iff.mp count
    rw [operands]
    refine ⟨o, [], rfl, Seeks.popValue held left (Seeks.popValue rfl right ?_)⟩
    exact jumpIf_seeks rfl rfl agrees o
  · exact heads.elim

theorem Heads.ne_label (heads : Heads m i) : i.opcode ≠ .label := by
  intro opcode
  simp only [Heads, opcode] at heads

/-- The loop honours a jump wherever it leads: no label instruction is the jump itself. -/
theorem step_seeks (written : i.Written) (table : m.labels = p.labels)
    (fetched : p.fetch? m = some i) (heads : Heads m i) :
    ∃ o os, i.operands = o :: os ∧ match p.labels.find? (Program.labelOf o) with
      | some n => ∃ m', step p m = .next m' ∧ m'.pc = n
      | none => ∃ m', step p m = .failed ⟨.language (.unknownLabel (Program.labelOf o)),
          .number i.index, some i.source⟩ m' := by
  obtain ⟨o, os, operands, seeks⟩ := command_seeks heads written
  refine ⟨o, os, operands, ?_⟩
  rw [table] at seeks
  cases ran : (command i.opcode i.operands).run m with
  | error f m' =>
    obtain ⟨missing, rfl⟩ := seeks.error ran
    rw [missing]
    have failed := execute_error.mpr ran
    refine ⟨m', ?_⟩
    simp only [step, fetched, failed]
    rfl
  | ok u m' =>
    have found : p.labels.find? (Program.labelOf o) = some m'.pc := seeks.ok ran
    have done := execute_ok.mpr ⟨m', ran, rfl⟩
    rw [found]
    obtain ⟨target, _, _, position, opcode, -⟩ := Program.labelAt_of_find? found
    have moved : m'.pc ≠ m.pc := by
      intro same
      rw [same, ← Program.fetch?_eq, fetched] at position
      exact heads.ne_label (Option.some.inj position ▸ opcode)
    refine ⟨advance m (account i m'), step_next.mpr ⟨i, _, fetched, done, rfl⟩, ?_⟩
    rw [advance_pc]
    exact if_neg moved

/-- A step goes to the last label instruction with one of the given texts, or reports that there is
none. -/
def Resolves (p : Program) (m : Machine) (i : Instruction) (texts : String → Prop)
    (reported : Option String) : Prop :=
  (∃ n m', p.LastLabel texts n ∧ step p m = .next m' ∧ m'.pc = n) ∨
  (∀ n t, texts t → ¬ p.LabelText t n) ∧
    ∃ m', step p m = .failed ⟨.language (.unknownLabel reported), .number i.index, some i.source⟩ m'

/-- Every jump that is made resolves the text that stands in the code. A text that names a label
stands for itself alone; texts that do not are not told apart. -/
theorem jump_resolves_text {code : String} {p : Program} {i : Instruction}
    (loaded : Program.load code = .ok p) (input : String) (interruptOn : Option Text) (k : Nat)
    (fetched : p.fetch? (reached p (p.start input interruptOn) k) = some i)
    (heads : Heads (reached p (p.start input interruptOn) k) i) :
    ∃ t ws, i.words = t :: ws ∧
      (Operand.isLabelName t = true →
        Resolves p (reached p (p.start input interruptOn) k) i (· = t) (some t)) ∧
      (Operand.isLabelName t = false →
        Resolves p (reached p (p.start input interruptOn) k) i
        (Operand.isLabelName · = false) none) := by
  have table := (run_placed (start_placed p input interruptOn) k).table
  have written := Program.load_written loaded (p.fetch?_eq _ ▸ fetched)
  obtain ⟨o, os, operands, sought⟩ := step_seeks written table fetched heads
  obtain ⟨t, ws, words, parsed⟩ := written.word_of_operand operands
  rw [Operand.labelOf_parse parsed] at sought
  have resolves : ∀ texts : String →
      Prop, (∀ u, texts u ↔ Operand.labelName u = Operand.labelName t) →
      Resolves p (reached p (p.start input interruptOn) k) i texts (Operand.labelName t) := by
    intro texts named
    have last := Program.find?_labels_text loaded named
    cases found : p.labels.find? (Operand.labelName t) with
    | none =>
      rw [found] at sought last
      exact .inr ⟨last, sought⟩
    | some n =>
      rw [found] at sought last
      obtain ⟨m', stepped, pc⟩ := sought
      exact .inl ⟨n, m', last, stepped, pc⟩
  refine ⟨t, ws, words, fun named => ?_, fun nameless => ?_⟩
  · have same : Operand.labelName t = some t := if_pos named
    have exactly := resolves (· = t) fun u => by rw [same, Operand.labelName_eq_some named]
    rwa [same] at exactly
  · have same : Operand.labelName t = none := (Operand.labelName_eq_none t).mp nameless
    have loosely := resolves (Operand.isLabelName · = false) fun u => by
      rw [same, Operand.labelName_eq_none]
    rwa [same] at loosely

/-- A name that is given twice, and two labels that are spelled like types. -/
def typedLabels : Program where
  instructions :=
    #[⟨.jump, [.label "go"], 2, "JUMP go"⟩,
      ⟨.label, [.label "go"], 3, "LABEL go"⟩,
      ⟨.jump, [.dataType .int], 4, "JUMP int"⟩,
      ⟨.label, [.label "go"], 5, "LABEL go"⟩,
      ⟨.jump, [.dataType .int], 6, "JUMP int"⟩,
      ⟨.label, [.dataType .int], 7, "LABEL int"⟩,
      ⟨.write, [.constant (.str "a")], 8, "WRITE string@a"⟩,
      ⟨.label, [.dataType .bool], 9, "LABEL bool"⟩,
      ⟨.write, [.constant (.str "b")], 10, "WRITE string@b"⟩]

def typedLabelsCode : String :=
  ".IFJcode17\nJUMP go\nLABEL go\nJUMP int\nLABEL go\nJUMP int\nLABEL int\nWRITE string@a\n" ++
  "LABEL bool\nWRITE string@b\n"

def typedLabelsState (k : Nat) : Machine := reached typedLabels (typedLabels.start "" none) k

theorem typedLabels_loads : Program.load typedLabelsCode = .ok typedLabels :=
  eq_ok_of_toOption (by decide +kernel)

theorem typedLabels_resolves_name :
    Program.load typedLabelsCode = .ok typedLabels ∧
    typedLabels.fetch? (typedLabelsState 0) = some ⟨.jump, [.label "go"], 2, "JUMP go"⟩ ∧
    Resolves typedLabels (typedLabelsState 0) ⟨.jump, [.label "go"], 2, "JUMP go"⟩ (· = "go")
    (some "go") ∧
    (typedLabelsState 1).pc = 3 := by
  have fetched : typedLabels.fetch? (typedLabelsState 0) =
      some ⟨.jump, [.label "go"], 2, "JUMP go"⟩ := by decide +kernel
  obtain ⟨t, ws, words, named, -⟩ := jump_resolves_text typedLabels_loads "" none 0 fetched trivial
  have text : (⟨.jump, [.label "go"], 2, "JUMP go"⟩ : Instruction).words =
      ["go"] := by decide +kernel
  obtain ⟨rfl, -⟩ := List.cons.inj (text.symm.trans words)
  exact ⟨typedLabels_loads, fetched, named (by decide +kernel), by decide +kernel⟩

/-- The jump to `int` passes by the label `int` and goes to the label `bool`. -/
theorem typedLabels_confused :
    Program.load typedLabelsCode = .ok typedLabels ∧
    typedLabels.fetch? (typedLabelsState 2) = some ⟨.jump, [.dataType .int], 6, "JUMP int"⟩ ∧
    typedLabels.LabelText "int" 5 ∧ typedLabels.LabelText "bool" 7 ∧
    ¬ typedLabels.LabelText "int" 7 ∧
    (typedLabelsState 3).pc = 7 := by
  have int : (⟨.label, [.dataType .int], 7, "LABEL int"⟩ : Instruction).words = ["int"] := by
    decide +kernel
  have bool : (⟨.label, [.dataType .bool], 9, "LABEL bool"⟩ : Instruction).words = ["bool"] := by
    decide +kernel
  refine ⟨typedLabels_loads, by decide +kernel, ⟨_, _, rfl, rfl, int⟩, ⟨_, _, rfl, rfl, bool⟩, ?_,
    by decide +kernel⟩
  rintro ⟨i, ws, found, -, words⟩
  cases found
  exact absurd (List.cons.inj (bool.symm.trans words)).1 (by decide)

end Machine
end TacBench
