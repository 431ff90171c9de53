import TacBench.Proofs.Access
import TacBench.Proofs.Control

/-! Commands on the data stack against commands on operands. A stack command computes with values
that have been pushed; pushing the operands, computing and popping the result does what the command
on operands does, as long as every value that passes the stack can be shown in the log. Machines are
compared up to counts and prices, which do differ. -/
namespace TacBench

/-- An integer with more digits than are written. -/
def Value.Overlong : Value → Prop
  | .int n => Nat.pow 10 Integer.digitLimit ≤ n.natAbs
  | _ => False

instance : DecidablePred Value.Overlong
  | .int n => inferInstanceAs (Decidable (_ ≤ n.natAbs))
  | .none | .bool _ | .float _ | .str _ => isFalse id

theorem Value.text_ok {v : Value} (short : ¬ v.Overlong) : ∃ t, v.text = .ok t := by
  cases v with
  | int n =>
    have fits : Integer.hasText n = true := by
      simpa only [Integer.hasText, decide_eq_true_eq, Overlong, Nat.not_le] using short
    exact ⟨_, by rw [text, if_pos fits]⟩
  | none | bool b | float x | str s => exact ⟨_, rfl⟩

theorem Value.same_comm (a b : Value) : a.same b = b.same a := by
  cases a <;> cases b
  case none.none => rfl
  case str.str s t => exact BEq.comm
  all_goals
    simp only [same]
    generalize place? _ = p
    generalize place? _ = q
    cases p with
    | none => cases q <;> rfl
    | some p =>
      cases q with
      | none => rfl
      | some q => exact BEq.comm

namespace Machine

variable {α β ε : Type} {c : Exec α} {k : α → Exec β} {m x x' y : Machine} {s : Source}
  {l r v : Value}

/-- The machine without its counts, prices and last line. -/
def unpriced (m : Machine) : Machine :=
  { m with executed := 0, line := 0, instructionPrice := 0, operandPrice := 0 }

def Alike (x y : Machine) : Prop := x.unpriced = y.unpriced

def pushed (m : Machine) (v : Value) : Machine := { m with stack := v :: m.stack }

theorem Alike.stack (alike : Alike x y) : x.stack = y.stack := by
  have same := congrArg Machine.stack alike
  exact same

theorem Alike.frames (alike : Alike x y) : SameFrames y x := by
  have temp := congrArg Machine.temp alike
  have locals := congrArg Machine.locals alike
  have globals := congrArg Machine.globals alike
  exact ⟨temp, locals, globals⟩

theorem Alike.labels (alike : Alike x y) : x.labels = y.labels := by
  have same := congrArg Machine.labels alike
  exact same

theorem Alike.longest (alike : Alike x y) : x.longest = y.longest := by
  have same := congrArg Machine.longest alike
  exact same

theorem Alike.restack (alike : Alike x y) (values : List Value) (n : Nat) :
    Alike { x with stack := values, operandPrice := n } { y with stack := values } := by
  have same := congrArg (fun z : Machine => { z with stack := values }) alike
  exact same

theorem Alike.jumped (alike : Alike x y) (n : Int) :
    Alike { x with pc := n } { y with pc := n } := by
  have same := congrArg (fun z : Machine => { z with pc := n }) alike
  exact same

theorem storeIn_unpriced (kind : FrameKind) (name : String) (v : Value) (m : Machine) :
    (storeIn kind name v m).unpriced = storeIn kind name v m.unpriced := by
  cases kind with
  | temporary => rfl
  | globals => rfl
  | locals =>
    obtain ⟨temp, locals⟩ := m
    cases locals <;> rfl

theorem Alike.stored (alike : Alike x y) (kind : FrameKind) (name : String) (v : Value) :
    Alike (storeIn kind name v x) (storeIn kind name v y) := by
  rw [Alike, storeIn_unpriced, storeIn_unpriced, alike]

/-- A computation ends as told: with the fault, or with the answer and a machine that is alike. -/
def Leads (c : Exec α) (x : Machine) : Except Fault (α × Machine) → Prop
  | .ok (a, y) => ∃ x', c.run x = .ok a x' ∧ Alike x' y
  | .error f => ∃ x', c.run x = .error f x'

theorem Leads.andThen {a : α} {e : Except Fault (β × Machine)} (first : Leads c x (.ok (a, y)))
    (next : ∀ x', Alike x' y → Leads (k a) x' e) : Leads (c >>= k) x e := by
  obtain ⟨x', ran, alike⟩ := first
  have rest := next x' alike
  simpa only [Leads, EStateM.run_bind, ran] using rest

/-- What follows a computation goes on from its answer, if it gives one. -/
theorem Leads.bind {e : Except Fault ε} {answer : ε → α × Machine}
    {g : ε → Except Fault (β × Machine)} (first : Leads c x (answer <$> e))
    (next : ∀ v x', e = .ok v → Alike x' (answer v).2 → Leads (k (answer v).1) x' (g v)) :
    Leads (c >>= k) x (e >>= g) := by
  cases e with
  | error f =>
    obtain ⟨x', ran⟩ := first
    exact ⟨x', by rw [EStateM.run_bind, ran]⟩
  | ok v => exact Leads.andThen first fun x' => next v x' rfl

theorem execute_leads {i : Instruction} {e : Except Fault (Unit × Machine)} (alike : Alike x y)
    (done : Leads (commandWithin y.longest i.opcode i.operands) x e) : Leads (execute i) x e := by
  rw [← alike.longest] at done
  change Leads (command i.opcode i.operands) x e at done
  cases e with
  | error f =>
    obtain ⟨x', ran⟩ := done
    exact ⟨x', execute_error.mpr ran⟩
  | ok p =>
    obtain ⟨x', ran, alike⟩ := done
    exact ⟨account i x', execute_ok.mpr ⟨x', ran, rfl⟩, alike⟩

theorem read_leads (alike : Alike x y) : Leads (read s) x ((·, y) <$> lookup y s) := by
  rw [← alike.frames.lookup]
  have ran := read_run s x
  cases found : lookup x s with
  | error f => exact ⟨_, by rw [ran, found]⟩
  | ok v => exact ⟨x.charged (readPrice s), by rw [ran, found], alike⟩

/-- A value that is given is not overlong. -/
def Short (e : Except Fault Value) : Prop := ∀ v, e = .ok v → ¬ v.Overlong

instance : DecidablePred Short
  | .ok v => decidable_of_iff (¬ v.Overlong) ⟨fun short _ same => Except.ok.inj same ▸ short,
      fun short => short v rfl⟩
  | .error _ => isTrue fun _ same => nomatch same

theorem push_leads (alike : Alike x y) (short : Short (lookup y s)) :
    Leads (push s) x ((fun v => ((), y.pushed v)) <$> lookup y s) := by
  have ran := push_run s x
  rw [alike.frames.lookup] at ran
  cases found : lookup y s with
  | error f => exact ⟨_, by rw [ran, found]⟩
  | ok v =>
    obtain ⟨t, shown⟩ := Value.text_ok (short v found)
    rw [found, alike.stack] at ran
    simp only [shown] at ran
    exact ⟨_, ran, alike.restack _ _⟩

theorem popValue_leads (alike : Alike x (y.pushed v)) (short : ¬ v.Overlong) :
    Leads popValue x (.ok (v, y)) := by
  obtain ⟨t, shown⟩ := Value.text_ok short
  have ran := popValue_run x
  rw [alike.stack] at ran
  simp only [pushed, shown] at ran
  exact ⟨_, ran, alike.restack _ _⟩

def lifted (e : Except Value.Fault α) : Except Fault α := e.mapError .value

theorem ofValue_leads (alike : Alike x y) (e : Except Value.Fault α) :
    Leads (ofValue e) x ((·, y) <$> lifted e) := by
  cases e with
  | error f => exact ⟨x, rfl⟩
  | ok a => exact ⟨x, rfl, alike⟩

/-- The machine after a value has been stored in a variable, if it can be. -/
def stored (m : Machine) (f : FrameRef) (name : String) (v : Value) :
    Except Fault (Unit × Machine) :=
  (fun _ => ((), storeIn f.kind name v m)) <$> assignable m f name v

theorem assign_leads (alike : Alike x y) (f : FrameRef) (name : String) (v : Value) :
    Leads (assign (.operand (.var f name)) (.value v)) x (stored y f name v) := by
  have ran := assign_value_run f name v x
  rw [alike.frames.assignable] at ran
  rw [stored]
  cases fits : assignable y f name v with
  | error e => exact ⟨x, by rw [ran, fits]⟩
  | ok _ =>
    have after := alike.stored f.kind name v
    exact ⟨(storeIn f.kind name v x).charged variablePrice, by rw [ran, fits], after⟩

theorem pop_leads (alike : Alike x (y.pushed v)) (short : ¬ v.Overlong) (f : FrameRef)
    (name : String) :
    Leads (discard (pop (.operand (.var f name)))) x (stored y f name v) := by
  obtain ⟨t, shown⟩ := Value.text_ok short
  have frames : SameFrames y x := alike.frames
  have ran := pop_variable_run f name x
  rw [alike.stack] at ran
  simp only [pushed, shown, frames.assignable] at ran
  rw [stored]
  cases fits : assignable y f name v with
  | error e =>
    rw [fits] at ran
    exact ⟨x, by rw [discard_run, ran]⟩
  | ok _ =>
    rw [fits] at ran
    refine ⟨_, by rw [discard_run, ran], ?_⟩
    change Alike { storeIn f.kind name v x with stack := y.stack } (storeIn f.kind name v y)
    rw [storeIn_restack]
    exact (alike.restack y.stack x.operandPrice).stored f.kind name v

theorem binaryStack_leads {g : Value → Value → Except Value.Fault Value}
    (alike : Alike x ((y.pushed l).pushed r)) (left : ¬ l.Overlong) (right : ¬ r.Overlong)
    (result : Short (lifted (g l r))) :
    Leads (binaryStack g) x ((fun v => ((), y.pushed v)) <$> lifted (g l r)) := by
  refine (popValue_leads alike right).andThen fun x₁ alike => ?_
  refine (popValue_leads alike left).andThen fun x₂ alike => ?_
  rw [map_eq_pure_bind]
  refine Leads.bind (ofValue_leads alike (g l r)) fun v x₃ computed alike => ?_
  exact push_leads alike fun w same => Except.ok.inj same ▸ result v computed

theorem unaryStack_leads {g : Value → Except Value.Fault Value} (alike : Alike x (y.pushed v))
    (operand : ¬ v.Overlong) (result : Short (lifted (g v))) :
    Leads (unaryStack g) x ((fun v => ((), y.pushed v)) <$> lifted (g v)) := by
  refine (popValue_leads alike operand).andThen fun x₁ alike => ?_
  rw [map_eq_pure_bind]
  refine Leads.bind (ofValue_leads alike (g v)) fun w x₂ computed alike => ?_
  exact push_leads alike fun u same => Except.ok.inj same ▸ result w computed

/-- The machine after a jump, if there is the label. -/
def jumped (m : Machine) (label : Operand) : Except Fault (Unit × Machine) :=
  match m.labels.find? (Program.labelOf label) with
  | some n => .ok ((), { m with pc := n })
  | none => .error (.language (.unknownLabel (Program.labelOf label)))

/-- The machine after a jump that is made if two values are equal, or if they are not. -/
def jumpedIf (m : Machine) (label : Operand) (equal : Bool) (l r : Value) :
    Except Fault (Unit × Machine) :=
  if l.same r = equal then jumped m label else .ok ((), m)

theorem jump_leads (alike : Alike x y) (label : Operand) :
    Leads (jump (.operand label)) x (jumped y label) := by
  have ran := target_run label x
  rw [alike.labels] at ran
  rw [jumped]
  cases found : y.labels.find? (Program.labelOf label) with
  | none => exact ⟨x, by rw [jump, EStateM.run_bind, ran, found]⟩
  | some n => exact ⟨_, by rw [jump, EStateM.run_bind, ran, found]; rfl, alike.jumped n⟩

theorem jumpIf_leads (alike : Alike x y) (label : Operand) (a b : Source) (equal : Bool) :
    Leads (jumpIf (.operand label) a b equal) x
      (lookup y a >>= fun l => lookup y b >>= fun r => jumpedIf y label equal l r) := by
  refine Leads.bind (read_leads alike) fun l x₁ _ alike => ?_
  refine Leads.bind (read_leads alike) fun r x₂ _ alike => ?_
  dsimp only
  rw [jumpedIf]
  split
  · exact jump_leads alike label
  · exact ⟨x₂, rfl, alike⟩

/-- The value pushed first comes to stand on the right. -/
theorem jumpIfStack_leads (alike : Alike x ((y.pushed l).pushed r)) (left : ¬ l.Overlong)
    (right : ¬ r.Overlong) (label : Operand) (equal : Bool) :
    Leads (jumpIfStack (.operand label) equal) x (jumpedIf y label equal l r) := by
  refine (popValue_leads alike right).andThen fun x₁ alike => ?_
  refine (popValue_leads alike left).andThen fun x₂ alike => ?_
  rw [jumpedIf, Value.same_comm]
  exact jumpIf_leads alike label (.value r) (.value l) equal

def executeAll : List Instruction → Exec Unit
  | [] => pure ()
  | i :: rest => do
    execute i
    executeAll rest

/-- How code ends: with which fault, or in which machine, counts and prices apart. -/
def outcome (code : List Instruction) (m : Machine) : Except Fault Machine :=
  match (executeAll code).run m with
  | .ok _ m' => .ok m'.unpriced
  | .error f _ => .error f

theorem Leads.outcome_eq {code : List Instruction} {e : Except Fault (Unit × Machine)}
    (led : Leads (executeAll code) m e) : outcome code m = (·.2.unpriced) <$> e := by
  cases e with
  | error f =>
    obtain ⟨m', ran⟩ := led
    rw [outcome, ran]
    rfl
  | ok p =>
    obtain ⟨m', ran, alike⟩ := led
    rw [outcome, ran]
    exact congrArg Except.ok alike

theorem executeAll_cons {i : Instruction} {rest : List Instruction} {e : Except Fault ε}
    {answer : ε → Unit × Machine} {g : ε → Except Fault (Unit × Machine)} (alike : Alike x y)
    (first : Leads (commandWithin y.longest i.opcode i.operands) x (answer <$> e))
    (next : ∀ v x', e = .ok v → Alike x' (answer v).2 → Leads (executeAll rest) x' (g v)) :
    Leads (executeAll (i :: rest)) x (e >>= g) :=
  Leads.bind (execute_leads alike first) next

theorem executeAll_last {i : Instruction} {e : Except Fault (Unit × Machine)} (alike : Alike x y)
    (done : Leads (commandWithin y.longest i.opcode i.operands) x e) :
    Leads (executeAll [i]) x e := by
  have first : Leads (commandWithin y.longest i.opcode i.operands) x (id <$> e) := by rwa [id_map]
  rw [← bind_pure e]
  exact executeAll_cons alike first fun _ x' _ alike => ⟨x', rfl, alike⟩

theorem lookup_pushed (m : Machine) (v : Value) (s : Source) : lookup (m.pushed v) s = lookup m s :=
  have same : SameFrames m (m.pushed v) := ⟨rfl, rfl, rfl⟩
  same.lookup s

end Machine

/-- An instruction of a command, with the line it stands on. -/
def Opcode.on (c : Opcode) (operands : List Operand) (line : Int × String) : Instruction :=
  ⟨c, operands, line.1, line.2⟩

section Forms

variable (target left right label : Operand) (line : Nat → Int × String)

def Binary.operandForm (op : Binary) : List Instruction :=
  [(Opcode.binary op).on [target, left, right] (line 0)]

def Binary.stackForm (op : Binary) : List Instruction :=
  [Opcode.push.on [left] (line 0), Opcode.push.on [right] (line 1),
    (Opcode.binaryStack op).on [] (line 2), Opcode.pop.on [target] (line 3)]

def Unary.operandForm (op : Unary) : List Instruction :=
  [(Opcode.unary op).on [target, left] (line 0)]

def Unary.stackForm (op : Unary) : List Instruction :=
  [Opcode.push.on [left] (line 0), (Opcode.unaryStack op).on [] (line 1),
    Opcode.pop.on [target] (line 2)]

/-- Jumps if two values are equal, or if they are not. -/
def Machine.jumpForm (equal : Bool) : List Instruction :=
  [(Opcode.jumpIf equal).on [label, left, right] (line 0)]

def Machine.jumpStackForm (equal : Bool) : List Instruction :=
  [Opcode.push.on [left] (line 0), Opcode.push.on [right] (line 1),
    (Opcode.jumpIfStack equal).on [label] (line 2)]

end Forms

namespace Machine

variable {m : Machine} {f : FrameRef} {name : String} {a b label : Operand}
  {line : Nat → Int × String}

/-- The value that an operation gives for two operands. -/
def binaryValue (m : Machine) (op : Binary) (a b : Operand) : Except Fault Value :=
  lookup m (.operand a) >>= fun l => lookup m (.operand b) >>= fun r =>
    lifted (op.apply m.longest l r)

def unaryValue (m : Machine) (op : Unary) (a : Operand) : Except Fault Value :=
  lookup m (.operand a) >>= fun l => lifted (op.apply m.longest l)

theorem binary_leads (op : Binary) :
    Leads (binary (op.apply m.longest) (.operand (.var f name)) (.operand a) (.operand b)) m
      (binaryValue m op a b >>= stored m f name) := by
  simp only [binaryValue, bind_assoc]
  refine Leads.bind (read_leads rfl) fun l x₁ _ alike => ?_
  refine Leads.bind (read_leads alike) fun r x₂ _ alike => ?_
  refine Leads.bind (ofValue_leads alike (op.apply m.longest l r)) fun v x₃ _ alike => ?_
  exact assign_leads alike f name v

theorem binary_operandForm_leads (op : Binary) :
    Leads (executeAll (op.operandForm (.var f name) a b line)) m
      (binaryValue m op a b >>= stored m f name) :=
  executeAll_last rfl (binary_leads op)

theorem binary_stackForm_leads (op : Binary) (left : Short (lookup m (.operand a)))
    (right : Short (lookup m (.operand b))) (result : Short (binaryValue m op a b)) :
    Leads (executeAll (op.stackForm (.var f name) a b line)) m
      (binaryValue m op a b >>= stored m f name) := by
  simp only [binaryValue, bind_assoc]
  refine executeAll_cons rfl (push_leads rfl left) fun l x₁ first alike => ?_
  have pushes := push_leads (s := .operand b) alike
  rw [lookup_pushed] at pushes
  refine executeAll_cons alike (pushes right) fun r x₂ second alike => ?_
  have short : Short (lifted (op.apply m.longest l r)) := by
    rw [binaryValue, first, second] at result
    exact result
  refine executeAll_cons alike (binaryStack_leads alike (left l first) (right r second) short)
    fun v x₃ computed alike => ?_
  exact executeAll_last alike (pop_leads alike (short v computed) f name)

theorem unary_operandForm_leads (op : Unary) :
    Leads (executeAll (op.operandForm (.var f name) a line)) m
    (unaryValue m op a >>= stored m f name) := by
  refine executeAll_last (y := m) rfl ?_
  simp only [unaryValue, bind_assoc]
  refine Leads.bind (read_leads rfl) fun l x₁ _ alike => ?_
  refine Leads.bind (ofValue_leads alike (op.apply m.longest l)) fun v x₂ _ alike => ?_
  exact assign_leads alike f name v

theorem unary_stackForm_leads (op : Unary) (operand : Short (lookup m (.operand a)))
    (result : Short (unaryValue m op a)) :
    Leads (executeAll (op.stackForm (.var f name) a line)) m
    (unaryValue m op a >>= stored m f name) := by
  simp only [unaryValue, bind_assoc]
  refine executeAll_cons rfl (push_leads rfl operand) fun l x₁ found alike => ?_
  have short : Short (lifted (op.apply m.longest l)) := by
    rw [unaryValue, found] at result
    exact result
  refine executeAll_cons alike (unaryStack_leads alike (operand l found) short)
    fun v x₂ computed alike => ?_
  exact executeAll_last alike (pop_leads alike (short v computed) f name)

def operandValues (m : Machine) (a b : Operand) : Except Fault (Value × Value) :=
  lookup m (.operand a) >>= fun l => lookup m (.operand b) >>= fun r => pure (l, r)

theorem jumpForm_leads (equal : Bool) :
    Leads (executeAll (jumpForm a b label line equal)) m
      (operandValues m a b >>= fun p => jumpedIf m label equal p.1 p.2) := by
  simp only [operandValues, bind_assoc, pure_bind]
  exact executeAll_last rfl (jumpIf_leads rfl label (.operand a) (.operand b) equal)

theorem jumpStackForm_leads (equal : Bool) (left : Short (lookup m (.operand a)))
    (right : Short (lookup m (.operand b))) :
    Leads (executeAll (jumpStackForm a b label line equal)) m
      (operandValues m a b >>= fun p => jumpedIf m label equal p.1 p.2) := by
  simp only [operandValues, bind_assoc, pure_bind]
  refine executeAll_cons rfl (push_leads rfl left) fun l x₁ first alike => ?_
  have pushes := push_leads (s := .operand b) alike
  rw [lookup_pushed] at pushes
  refine executeAll_cons alike (pushes right) fun r x₂ second alike => ?_
  exact executeAll_last alike (jumpIfStack_leads alike (left l first) (right r second) label equal)

/-- Two pieces of code end alike, be it with a fault, and leave the data stack and the calls as they
are if they succeed. -/
def Interchangeable (m : Machine) (these those : List Instruction) : Prop :=
  outcome these m = outcome those m ∧
    ∀ m', outcome these m = .ok m' → m'.stack = m.stack ∧ m'.calls = m.calls

theorem Leads.interchangeable {these those : List Instruction} {e : Except Fault ε}
    {g : ε → Except Fault (Unit × Machine)} (first : Leads (executeAll these) m (e >>= g))
    (second : Leads (executeAll those) m (e >>= g))
    (kept : ∀ v m', g v = .ok ((), m') → m'.stack = m.stack ∧ m'.calls = m.calls) :
    Interchangeable m these those := by
  refine ⟨first.outcome_eq.trans second.outcome_eq.symm, fun m' ended => ?_⟩
  rw [first.outcome_eq] at ended
  cases e with
  | error fault => cases ended
  | ok v =>
    change (·.2.unpriced) <$> g v = .ok m' at ended
    cases last : g v with
    | error fault =>
      rw [last] at ended
      cases ended
    | ok p =>
      rw [last] at ended
      cases ended
      exact kept v p.2 last

theorem stored_kept (v : Value) (m' : Machine) (done : stored m f name v = .ok ((), m')) :
    m'.stack = m.stack ∧ m'.calls = m.calls := by
  rw [stored] at done
  cases fits : assignable m f name v with
  | error fault =>
    rw [fits] at done
    cases done
  | ok _ =>
    rw [fits] at done
    cases done
    exact ⟨storeIn_stack f.kind name v m, (storeIn_control f.kind name v m).2.1⟩

theorem jumpedIf_kept (equal : Bool) (p : Value × Value) (m' : Machine)
    (done : jumpedIf m label equal p.1 p.2 = .ok ((), m')) :
    m'.stack = m.stack ∧ m'.calls = m.calls := by
  rw [jumpedIf, jumped] at done
  split at done
  · split at done <;> cases done
    exact ⟨rfl, rfl⟩
  · cases done
    exact ⟨rfl, rfl⟩

/-- Pushing the operands, computing on the stack and popping the result is computing on the
operands, unless an operand or the result is overlong; jumps on the stack are jumps on operands. -/
theorem stackForms_interchangeable (m : Machine) (f : FrameRef) (name : String)
    (a b label : Operand) (line : Nat → Int × String) (left : Short (lookup m (.operand a))) :
    (∀ op : Binary, Short (lookup m (.operand b)) → Short (binaryValue m op a b) →
      Interchangeable m (op.stackForm (.var f name) a b line)
      (op.operandForm (.var f name) a b line)) ∧
    (∀ op : Unary, Short (unaryValue m op a) →
      Interchangeable m (op.stackForm (.var f name) a line) (op.operandForm (.var f name) a line)) ∧
    ∀ equal : Bool, Short (lookup m (.operand b)) →
      Interchangeable m (jumpStackForm a b label line equal) (jumpForm a b label line equal) := by
  refine ⟨fun op right result => ?_, fun op result => ?_, fun equal right => ?_⟩
  · exact (binary_stackForm_leads op left right result).interchangeable
      (binary_operandForm_leads op) stored_kept
  · exact (unary_stackForm_leads op left result).interchangeable
      (unary_operandForm_leads op) stored_kept
  · exact (jumpStackForm_leads equal left right).interchangeable
      (jumpForm_leads equal) (jumpedIf_kept equal)

/-- A machine in which a variable is both operand and target. -/
def sevenInX : Machine where
  globals := [("x", .int 7)]
  stack := [.bool true]
  labels := [(some "seven", 3)]

theorem sevenInX_stackForms :
    let x : Operand := .var ⟨.globals, true, true⟩ "x"
    let nine : Operand := .constant (.int 9)
    let line := fun _ : Nat => ((1 : Int), "")
    (Short (lookup sevenInX (.operand x)) ∧ Short (lookup sevenInX (.operand nine)) ∧
      Short (binaryValue sevenInX .sub x nine) ∧ Short (unaryValue sevenInX .toChar x)) ∧
    (outcome (Binary.sub.stackForm x x nine line) sevenInX).toOption.map (·.globals) =
      some [("x", .int (-2))] ∧
    Interchangeable sevenInX (Binary.sub.stackForm x x nine line)
      (Binary.sub.operandForm x x nine line) ∧
    Interchangeable sevenInX (Unary.toChar.stackForm x x line) (Unary.toChar.operandForm x x line) ∧
    Interchangeable sevenInX (jumpStackForm x nine (.label "seven") line false)
      (jumpForm x nine (.label "seven") line false) := by
  intro x nine line
  have left : Short (lookup sevenInX (.operand x)) := by decide +kernel
  have right : Short (lookup sevenInX (.operand nine)) := by decide +kernel
  have difference : Short (binaryValue sevenInX .sub x nine) := by decide +kernel
  have character : Short (unaryValue sevenInX .toChar x) := by decide +kernel
  obtain ⟨binary, unary, jumps⟩ :=
    stackForms_interchangeable sevenInX ⟨.globals, true, true⟩ "x" x nine
    (.label "seven") line left
  exact ⟨⟨left, right, difference, character⟩, by decide +kernel, binary .sub right difference,
    unary .toChar character, jumps false right⟩

end Machine
end TacBench
