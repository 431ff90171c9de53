import Mathlib.Data.List.Basic
import TacBench.Proofs.Loaded
import TacBench.Proofs.Phases

/-! Why an instruction fails. The language has errors of its own for most of what can go wrong. Any
other fault has one of few causes: a variable is read that its frame does not have, the temporary
frame is used while there is none, something is declared that is no variable, an operation refuses
its values, or the input does not begin with a decimal. -/
namespace TacBench

/-- Commands that show the values they handle, in the log or to the user. -/
def Opcode.shows : Opcode → Bool
  | .push | .pop | .jumpIfStack _ | .binaryStack _ | .unaryStack _ | .dprint => true
  | _ => false

namespace Machine

variable {α β : Type} {computation : Exec α} {c : Opcode} {operands : List Operand} {o : Operand}
  {m m' x : Machine} {f : Fault} {paid taken : Nat} {line : Bool}

/-- A value that a command finds in its operands or on the data stack. -/
inductive Given (m : Machine) (operands : List Operand) (v : Value) : Prop
  | operand (o : Operand) (member : o ∈ operands) (found : lookup m (.operand o) = .ok v)
  | stacked (member : v ∈ m.stack)

/-- An operation of a command refuses its values. -/
inductive Refusal (m : Machine) (operands : List Operand) : Opcode → Value.Fault → Prop
  | binary {op : Binary} {l r : Value} {e : Value.Fault} (left : Given m operands l)
      (right : Given m operands r) (refused : op.apply m.longest l r = .error e) :
      Refusal m operands (.binary op) e
  | binaryStack {op : Binary} {l r : Value} {e : Value.Fault} (left : Given m operands l)
      (right : Given m operands r) (refused : op.apply m.longest l r = .error e) :
      Refusal m operands (.binaryStack op) e
  | binaryResult {op : Binary} {l r v : Value} {e : Value.Fault} (left : Given m operands l)
      (right : Given m operands r) (computed : op.apply m.longest l r = .ok v)
      (refused : v.text = .error e) :
      Refusal m operands (.binaryStack op) e
  | unary {op : Unary} {v : Value} {e : Value.Fault} (given : Given m operands v)
      (refused : op.apply m.longest v = .error e) : Refusal m operands (.unary op) e
  | unaryStack {op : Unary} {v : Value} {e : Value.Fault} (given : Given m operands v)
      (refused : op.apply m.longest v = .error e) : Refusal m operands (.unaryStack op) e
  | unaryResult {op : Unary} {v w : Value} {e : Value.Fault} (given : Given m operands v)
      (computed : op.apply m.longest v = .ok w) (refused : w.text = .error e) :
      Refusal m operands (.unaryStack op) e
  | concat {l r : Value} {e : Value.Fault} (left : Given m operands l) (right : Given m operands r)
      (refused : Value.concat l r = .error e) : Refusal m operands .concat e
  | length {v : Value} {e : Value.Fault} (given : Given m operands v)
      (refused : v.length = .error e) :
      Refusal m operands .length e
  | charAt {v i : Value} {e : Value.Fault} (text : Given m operands v) (index : Given m operands i)
      (refused : Value.pointAt v i = .error e) : Refusal m operands .getChar e
  | firstChar {v : Value} {e : Value.Fault} (given : Given m operands v)
      (refused : Value.pointAt v (.int 0) = .error e) : Refusal m operands .setChar e
  | unchangeable {v : Value} (given : Given m operands v) :
      Refusal m operands .setChar (.notAssignable v.kind)
  | unprintable {v : Value} {e : Value.Fault} (given : Given m operands v)
      (refused : v.printed = .error e) :
      Refusal m operands .write e
  | textless {c : Opcode} {v : Value} {e : Value.Fault} (shows : c.shows = true)
      (given : Given m operands v)
      (refused : v.text = .error e) : Refusal m operands c e
  | emptyLine (empty : Text.strip (Text.takeLine m.input).1 = []) :
      Refusal m operands .read .indexRange
  | summary {e : Value.Fault} (refused : m.summary = .error e) : Refusal m operands .break e

/-- The cause of a fault that is no error of the language. -/
inductive Foreign (m : Machine) (operands : List Operand) : Opcode → Fault → Prop
  | undeclared {c : Opcode} {f : FrameRef} {name : String} {d : Frame}
      (member : .var f name ∈ operands)
      (found : frameOf m f.kind = .ok (some d)) (absent : d.find? name = none) :
      Foreign m operands c (.unknownName name)
  | unframed {c : Opcode} {f : FrameRef} {name : String} (member : .var f name ∈ operands)
      (temporary : f.kind = .temporary) (missing : m.temp = none) :
      Foreign m operands c .temporaryRead
  | undeclarable {f : FrameRef} {name : String} (named : operands = [.var f name])
      (temporary : f.kind = .temporary) (missing : m.temp = none) :
      Foreign m operands .defVar .temporaryDeclaration
  | frameless {o : Operand} (named : operands = [o]) (other : ∀ f name, o ≠ .var f name) :
      Foreign m operands .defVar .frameless
  | refused {c : Opcode} {e : Value.Fault} (refusal : Refusal m operands c e) :
      Foreign m operands c (.value e)
  | noDecimal (missing : decimalInput? (Text.strip (Text.takeLine m.input).1) = none) :
      Foreign m operands .read .noDecimal

theorem Foreign.ne_language (foreign : Foreign m operands c f) (e : Error) : f ≠ .language e := by
  cases foreign <;> exact nofun

/-- What a command that stops may stop with. -/
def Explained (m : Machine) (c : Opcode) (operands : List Operand) (f : Fault) : Prop :=
  f = .interrupted ∨ (∃ e, f = .language e) ∨ Foreign m operands c f

/-- A command on its way, after preparation, will succeed or stop for a known cause. -/
def Accounted (m : Machine) (c : Opcode) (operands : List Operand) (computation : Exec α)
    (x : Machine) : Prop :=
  Ends computation x (fun f _ => Explained m c operands f) fun _ _ => True

theorem Explained.language (e : Error) : Explained m c operands (.language e) :=
  .inr (.inl ⟨e, rfl⟩)

theorem Explained.foreign (foreign : Foreign m operands c f) :
    Explained m c operands f := .inr (.inr foreign)

theorem Explained.refused {e : Value.Fault} (refusal : Refusal m operands c e) :
    Explained m c operands (.value e) := .foreign (.refused refusal)

/-- Only the temporary frame can be missing without an error. -/
theorem temporary_of_frameOf {kind : FrameKind} (found : frameOf m kind = .ok none) :
    kind = .temporary ∧ m.temp = none := by
  cases kind with
  | temporary => exact ⟨rfl, Except.ok.inj found⟩
  | globals => cases found
  | locals =>
    rw [frameOf] at found
    split at found <;> cases found

theorem frameOf_error {kind : FrameKind} (missing : frameOf m kind = .error f) :
    f = .language .missingFrame := by
  cases kind with
  | temporary => cases missing
  | globals => cases missing
  | locals =>
    rw [frameOf] at missing
    split at missing
    · cases missing
    · cases missing
      rfl

theorem lookup_explained (member : o ∈ operands) (looked : lookup m (.operand o) = .error f) :
    Explained m c operands f := by
  cases o with
  | constant v => cases looked
  | label name =>
    cases looked
    exact .language _
  | dataType t =>
    cases looked
    exact .language _
  | var ref name =>
    rw [lookup_variable] at looked
    cases found : frameOf m ref.kind with
    | error e =>
      rw [found] at looked
      cases looked
      rw [frameOf_error found]
      exact .language _
    | ok frame =>
      rw [found] at looked
      change valueIn ref name frame = .error f at looked
      unfold valueIn at looked
      split at looked
      · cases looked
        obtain ⟨temporary, missing⟩ := temporary_of_frameOf found
        exact .foreign (.unframed member temporary missing)
      · split at looked
        · rename_i absent
          cases looked
          exact .foreign (.undeclared member found absent)
        · cases looked
          exact .language _
        · cases looked

/-! The steps of preparation, with the causes they can stop for. -/

theorem accounted_fail (e : Error) : Accounted m c operands (fail e : Exec α) x :=
  Explained.language e

theorem accounted_done {a : α} (ran : computation.run x = .ok a m') :
    Accounted m c operands computation x :=
  .of_ok ran trivial

theorem accounted_operand {k : Value → Exec β} (member : o ∈ operands)
    (next : ∀ v, Given m operands v →
      Accounted m c operands (k v) (m.prepared (paid + readPrice (.operand o)) taken line)) :
    Accounted m c operands (read (.operand o) >>= k) (m.prepared paid taken line) :=
  Ends.read (fun _ looked => lookup_explained member looked) fun v looked =>
    next v (.operand o member looked)

theorem accounted_ofValue {k : α → Exec β} {r : Except Value.Fault α}
    (refused : ∀ e, r = .error e → Refusal m operands c e)
    (next : ∀ a, r = .ok a → Accounted m c operands (k a) x) :
    Accounted m c operands (ofValue r >>= k) x :=
  Ends.ofValue (fun e failed => .refused (refused e failed)) next

theorem accounted_frame {kind : FrameKind} {k : Option Frame → Exec β}
    (next : ∀ found, frameOf m kind = .ok found →
      Accounted m c operands (k found) (m.prepared paid taken line)) :
    Accounted m c operands (frame kind >>= k) (m.prepared paid taken line) :=
  Ends.frame (fun _ missing => frameOf_error missing ▸ .language _) next

theorem accounted_popValue {k : Value → Exec β} (shows : c.shows = true)
    (next : ∀ v, Given m operands v →
      Accounted m c operands (k v) (m.prepared (paid + stackPrice) (taken + 1) line)) :
    Accounted m c operands (popValue >>= k) (m.prepared paid taken line) :=
  Ends.popValue (.language _)
    (fun _ _ member refused => .refused (.textless shows (.stacked member) refused))
    fun v member => next v (.stacked member)

theorem accounted_target (o : Operand) {k : Int → Exec β}
    (next : ∀ n, Accounted m c operands (k n) x) :
    Accounted m c operands (target (.operand o) >>= k) x := by
  have ran := target_run o x
  apply Ends.bind
  cases found : x.labels.find? (Program.labelOf o) with
  | none =>
    rw [found] at ran
    exact .of_error ran (.language _)
  | some n =>
    rw [found] at ran
    exact .of_ok ran (next n)

/-! The commands. -/

theorem assign_accounted (o : Operand) (what : Source)
    (failing : ∀ f, lookup m what = .error f → Explained m c operands f) :
    Accounted m c operands (assign (.operand o) what) (m.prepared paid taken line) := by
  cases o with
  | constant v => exact accounted_fail _
  | label name => exact accounted_fail _
  | dataType t => exact accounted_fail _
  | var f name =>
    refine accounted_frame fun frame found => ?_
    cases frame with
    | none => exact accounted_fail _
    | some d =>
      dsimp only
      split
      · exact accounted_fail _
      · exact Ends.read failing fun v _ => accounted_done rfl

theorem store_accounted (o : Operand) (v : Value) :
    Accounted m c operands (assign (.operand o) (.value v)) (m.prepared paid taken line) :=
  assign_accounted o (.value v) nofun

theorem declare_accounted (o : Operand) :
    Accounted m .defVar [o] (declare (.operand o)) (m.prepared 0 0 false) := by
  cases o with
  | constant v => exact Explained.foreign (.frameless rfl nofun)
  | label name => exact Explained.foreign (.frameless rfl nofun)
  | dataType t => exact Explained.foreign (.frameless rfl nofun)
  | var f name =>
    refine accounted_frame fun frame found => ?_
    cases frame with
    | none =>
      obtain ⟨temporary, missing⟩ := temporary_of_frameOf found
      exact Explained.foreign (.undeclarable rfl temporary missing)
    | some d =>
      dsimp only
      split
      · exact accounted_fail _
      · exact accounted_done rfl

theorem jump_accounted (o : Operand) : Accounted m c operands (jump (.operand o)) x :=
  accounted_target o fun _ => accounted_done rfl

theorem returnBack_accounted : Accounted m c operands returnBack x := by
  apply Ends.bind
  refine .of_ok (EStateM.run_get x) ?_
  cases x.calls with
  | nil => exact accounted_fail _
  | cons position below => exact accounted_done rfl

theorem pushFrame_accounted : Accounted m c operands pushFrame x := by
  apply Ends.bind
  refine .of_ok (EStateM.run_get x) ?_
  cases x.temp with
  | none => exact accounted_fail _
  | some top => exact accounted_done rfl

theorem popFrame_accounted : Accounted m c operands popFrame x := by
  apply Ends.bind
  refine .of_ok (EStateM.run_get x) ?_
  cases x.locals with
  | nil => exact accounted_fail _
  | cons top below => exact accounted_done rfl

/-- What is compared has been read before, or is an operand. -/
theorem jumpIf_accounted (o : Operand) (l r : Source) (equal : Bool)
    (left : ∀ f, lookup m l = .error f → Explained m c operands f)
    (right : ∀ f, lookup m r = .error f → Explained m c operands f) :
    Accounted m c operands (jumpIf (.operand o) l r equal) (m.prepared paid taken line) := by
  refine Ends.read left fun a _ => Ends.read right fun b _ => ?_
  split
  · exact jump_accounted o
  · exact accounted_done rfl

theorem push_accounted (s : Source)
    (failing : ∀ f, lookup m s = .error f → Explained m c operands f)
    (refused : ∀ v e, lookup m s = .ok v → v.text = .error e → Refusal m operands c e) :
    Accounted m c operands (push s) (m.prepared paid taken line) :=
  Ends.read failing fun v looked => accounted_ofValue (fun e failed => refused v e looked failed)
    fun _ _ => accounted_done rfl

theorem pop_accounted (o : Operand) : Accounted m .pop operands (pop (.operand o)) m := by
  have textless (v : Value) (e : Value.Fault) (member : v ∈ m.stack) (refused : v.text = .error e) :
      Explained m .pop operands (.value e) := .refused (.textless rfl (.stacked member) refused)
  exact Ends.pop (.language _) textless fun v below _ =>
    (store_accounted o v : Accounted m .pop operands _ (m.prepared 0 0 false))

theorem emit_accounted (channel : Channel) (text : Text) :
    Accounted m c operands (emit channel text) x := by
  apply Ends.bind
  change Ends _ { x with written := (channel, text) :: x.written } _ _
  apply Ends.bind
  change Ends (if channel = .out && x.interruptOn = some text then throw .interrupted
    else pure ()) _ _ _
  split
  · exact Or.inl rfl
  · exact accounted_done rfl

theorem getChar_accounted (o a b : Operand) :
    Accounted m .getChar [o, a, b] (getChar (.operand o) (.operand a) (.operand b))
    (m.prepared 0 0 false) := by
  refine accounted_operand (by simp) fun v text => accounted_operand (by simp) fun i index => ?_
  split
  · exact store_accounted o _
  · exact accounted_operand (by simp) fun _ _ => accounted_fail _
  · exact accounted_operand (by simp) fun _ _ => accounted_fail _
  · rename_i refused
    exact Explained.refused (.charAt text index refused)

theorem setChar_accounted (o a b : Operand) :
    Accounted m .setChar [o, a, b] (setChar (.operand o) (.operand a) (.operand b))
    (m.prepared 0 0 false) := by
  refine accounted_operand (by simp) fun v changed => accounted_operand (by simp) fun w given => ?_
  refine accounted_ofValue (fun _ refused => .firstChar given refused) fun _ _ => ?_
  exact accounted_operand (by simp) fun _ _ => Explained.refused (.unchangeable changed)

theorem readInput_accounted (o type : Operand) :
    Accounted m .read operands (readInput (.operand o) (.operand type)) m := by
  apply Ends.bind
  change Ends _ (m.prepared 0 0 true) _ _
  cases type with
  | constant w => exact accounted_fail _
  | var f name => exact accounted_fail _
  | label name => exact accounted_fail _
  | dataType t =>
    cases t with
    | string =>
      dsimp only
      split
      · rename_i empty
        exact Explained.refused (.emptyLine (List.isEmpty_iff.mp empty))
      · exact store_accounted o _
    | int => exact store_accounted o _
    | float =>
      dsimp only
      split
      · rename_i missing
        exact Explained.foreign (.noDecimal missing)
      · split <;> exact store_accounted o _
    | bool => exact store_accounted o _

theorem binary_accounted {f : Value → Value → Except Value.Fault Value} {o a b : Operand}
    (refused : ∀ l r e, Given m [o, a, b] l → Given m [o, a, b] r → f l r = .error e →
      Refusal m [o, a, b] c e) :
    Accounted m c [o, a, b] (binary f (.operand o) (.operand a) (.operand b))
    (m.prepared 0 0 false) := by
  refine accounted_operand (by simp) fun l left => accounted_operand (by simp) fun r right => ?_
  exact accounted_ofValue (fun e failed => refused l r e left right failed) fun v _ =>
    store_accounted o v

theorem unary_accounted {f : Value → Except Value.Fault Value} {o a : Operand}
    (refused : ∀ v e, Given m [o, a] v → f v = .error e → Refusal m [o, a] c e) :
    Accounted m c [o, a] (unary f (.operand o) (.operand a)) (m.prepared 0 0 false) := by
  refine accounted_operand (by simp) fun v given => ?_
  exact accounted_ofValue (fun e failed => refused v e given failed) fun w _ => store_accounted o w

/-- Every command of the right number of operands succeeds or stops for a known cause. -/
theorem command_accounted (count : operands.length = c.arity) :
    Accounted m c operands (command c operands) m := by
  change Accounted m c operands (commandWithin m.longest c operands) (m.prepared 0 0 false)
  cases c with
  | move =>
    obtain ⟨a, b, rfl⟩ := List.length_eq_two.mp count
    exact assign_accounted a (.operand b) fun f looked => lookup_explained (by simp) looked
  | createFrame =>
    obtain rfl := List.length_eq_zero_iff.mp count
    exact accounted_done rfl
  | pushFrame =>
    obtain rfl := List.length_eq_zero_iff.mp count
    exact pushFrame_accounted
  | popFrame =>
    obtain rfl := List.length_eq_zero_iff.mp count
    exact popFrame_accounted
  | defVar =>
    obtain ⟨a, rfl⟩ := List.length_eq_one_iff.mp count
    exact declare_accounted a
  | jump =>
    obtain ⟨a, rfl⟩ := List.length_eq_one_iff.mp count
    exact jump_accounted a
  | call =>
    obtain ⟨a, rfl⟩ := List.length_eq_one_iff.mp count
    exact accounted_target a fun _ => accounted_done rfl
  | ret =>
    obtain rfl := List.length_eq_zero_iff.mp count
    exact returnBack_accounted
  | label =>
    obtain ⟨a, rfl⟩ := List.length_eq_one_iff.mp count
    exact accounted_done rfl
  | jumpIf equal =>
    obtain ⟨a, l, r, rfl⟩ := List.length_eq_three.mp count
    exact jumpIf_accounted a _ _ equal (fun f looked => lookup_explained (by simp) looked)
      fun f looked => lookup_explained (by simp) looked
  | jumpIfStack equal =>
    obtain ⟨a, rfl⟩ := List.length_eq_one_iff.mp count
    refine accounted_popValue rfl fun l _ => accounted_popValue rfl fun r _ => ?_
    exact jumpIf_accounted a (.value l) (.value r) equal nofun nofun
  | write =>
    obtain ⟨a, rfl⟩ := List.length_eq_one_iff.mp count
    refine accounted_operand (by simp) fun v given => ?_
    exact accounted_ofValue (fun e refused => .unprintable given refused) fun text _ =>
      emit_accounted .out text
  | read =>
    obtain ⟨a, b, rfl⟩ := List.length_eq_two.mp count
    exact readInput_accounted a b
  | push =>
    obtain ⟨a, rfl⟩ := List.length_eq_one_iff.mp count
    exact push_accounted (.operand a) (fun f looked => lookup_explained (by simp) looked)
      fun v e looked refused => .textless rfl (.operand a (by simp) looked) refused
  | pop =>
    obtain ⟨a, rfl⟩ := List.length_eq_one_iff.mp count
    exact (pop_accounted a).discard
  | clear =>
    obtain rfl := List.length_eq_zero_iff.mp count
    exact accounted_done rfl
  | binary op =>
    obtain ⟨o, a, b, rfl⟩ := List.length_eq_three.mp count
    exact binary_accounted fun l r e left right refused => .binary left right refused
  | binaryStack op =>
    obtain rfl := List.length_eq_zero_iff.mp count
    refine accounted_popValue rfl fun r right => accounted_popValue rfl fun l left => ?_
    refine accounted_ofValue (fun e refused => .binaryStack left right refused) fun v computed => ?_
    refine push_accounted (.value v) nofun fun w e looked refused => ?_
    cases looked
    exact .binaryResult left right computed refused
  | unary op =>
    obtain ⟨o, a, rfl⟩ := List.length_eq_two.mp count
    exact unary_accounted fun v e given refused => .unary given refused
  | unaryStack op =>
    obtain rfl := List.length_eq_zero_iff.mp count
    refine accounted_popValue rfl fun v given => ?_
    refine accounted_ofValue (fun e refused => .unaryStack given refused) fun w computed => ?_
    refine push_accounted (.value w) nofun fun u e looked refused => ?_
    cases looked
    exact .unaryResult given computed refused
  | type =>
    obtain ⟨o, a, rfl⟩ := List.length_eq_two.mp count
    refine accounted_operand (by simp) fun _ _ => accounted_operand (by simp) fun v _ => ?_
    exact store_accounted o _
  | concat =>
    obtain ⟨o, a, b, rfl⟩ := List.length_eq_three.mp count
    exact binary_accounted fun l r e left right refused => .concat left right refused
  | length =>
    obtain ⟨o, a, rfl⟩ := List.length_eq_two.mp count
    exact unary_accounted fun v e given refused => .length given refused
  | getChar =>
    obtain ⟨o, a, b, rfl⟩ := List.length_eq_three.mp count
    exact getChar_accounted o a b
  | setChar =>
    obtain ⟨o, a, b, rfl⟩ := List.length_eq_three.mp count
    exact setChar_accounted o a b
  | «break» =>
    obtain rfl := List.length_eq_zero_iff.mp count
    exact Ends.bind (accounted_ofValue (fun e refused => .summary refused) fun text _ =>
      emit_accounted .err _)
  | dprint =>
    obtain ⟨a, rfl⟩ := List.length_eq_one_iff.mp count
    refine accounted_operand (by simp) fun v given => ?_
    exact accounted_ofValue (fun e refused => .textless rfl given refused) fun text _ =>
      emit_accounted .err _
  | groot =>
    obtain rfl := List.length_eq_zero_iff.mp count
    exact Ends.bind (.of_ok (EStateM.run_get _) (emit_accounted .err _))

/-- The instruction at which a loaded program fails commits an error of the language or has a cause
to stop that the language does not know. -/
theorem failure_explained {code : String} {p : Program} (loaded : Program.load code = .ok p)
    {f : Failure} (stepped : step p m = .failed f m') :
    ∃ i, p.fetch? m = some i ∧
      ((∃ e, f.fault = .language e) ∨ Foreign m i.operands i.opcode f.fault) := by
  obtain ⟨i, e, fetched, ran, other, rfl⟩ := step_failed stepped
  have count := (Program.load_written loaded (p.fetch?_eq m ▸ fetched)).count
  refine ⟨i, fetched, ?_⟩
  rw [located_fault]
  exact ((command_accounted count).error (execute_error.mp ran)).resolve_left other

end Machine
end TacBench
