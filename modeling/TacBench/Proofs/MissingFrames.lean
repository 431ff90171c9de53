import TacBench.Proofs.Access
import TacBench.Proofs.Control
import TacBench.Proofs.Loaded

/-! Missing frames. Every access to a variable whose frame is missing fails and leaves the frames as
they are. An instruction that would succeed if the frames were there fails at its first access to a
missing one. The failure is about the frame and names the line, unless the access reads or declares
a variable of the temporary frame. -/
namespace TacBench.Machine

/-- How a frame is accessed: through one of its variables, or moved as a whole. -/
inductive Way where
  | read
  | assign
  | declare
  | shift
  deriving DecidableEq, Repr

structure Access where
  way : Way
  kind : FrameKind
  deriving DecidableEq, Repr

/-- Accesses that do not look whether there is a temporary frame. -/
def Access.blind : Access → Bool
  | ⟨.read, .temporary⟩ | ⟨.declare, .temporary⟩ => true
  | _ => false

/-- What an access to a missing frame fails with. -/
def Access.fault : Access → Fault
  | ⟨.read, .temporary⟩ => .temporaryRead
  | ⟨.declare, .temporary⟩ => .temporaryDeclaration
  | _ => .language .missingFrame

def Source.used (way : Way) : Source → List Access
  | .operand (.var f _) => [⟨way, f.kind⟩]
  | _ => []

/-- The accesses to frames that a command makes if it succeeds, in order. -/
def accesses (c : Opcode) (operands : List Operand) : List Access :=
  match c, operands.map Source.operand with
  | .move, [a, b] => a.used .assign ++ b.used .read
  | .pushFrame, [] => [⟨.shift, .temporary⟩]
  | .popFrame, [] => [⟨.shift, .locals⟩]
  | .defVar, [a] => a.used .declare
  | .jumpIf _, [_, b, c] => b.used .read ++ c.used .read
  | .write, [a] | .push, [a] | .dprint, [a] => a.used .read
  | .read, [a, _] | .pop, [a] => a.used .assign
  | .binary _, [a, b, c] | .concat, [a, b, c] | .getChar, [a, b, c] =>
    b.used .read ++ c.used .read ++ a.used .assign
  | .unary _, [a, b] | .length, [a, b] => b.used .read ++ a.used .assign
  | .type, [a, b] => b.used .read ++ b.used .read ++ a.used .assign
  | _, _ => []

def lacks (m : Machine) : FrameKind → Bool
  | .temporary => m.temp.isNone
  | .locals => m.locals.isEmpty
  | .globals => false

/-- The first access to a frame that is missing. -/
def missing (m : Machine) (as : List Access) : Option Access := as.find? (m.lacks ·.kind)

/-- The machine with other temporary and local frames. -/
def framed (m : Machine) (temp : Option Frame) (locals : List Frame) : Machine :=
  { m with temp, locals }

/-- The second machine is the first one, with some of the missing frames supplied. -/
inductive Supplies (m : Machine) : Machine → Prop where
  | intro (temp : Option Frame) (locals : List Frame) (kept : m.temp.isNone = false → temp = m.temp)
      (inner : m.locals.isEmpty = false → locals = m.locals) : Supplies m (m.framed temp locals)

/-- How far a computation gets from a machine that lacks frames, if it would succeed with them. -/
inductive Gets {α : Type} (m : Machine) (a : α) (kept : Machine → Prop) :
    Option Access → EStateM.Result Fault Machine α → Prop where
  | done {n : Machine} (holds : kept n) : Gets m a kept none (.ok a n)
  | missed (access : Access) {n : Machine} (same : SameFrames m n) :
      Gets m a kept (some access) (.error access.fault n)

/-- Computations that leave the frames as they are and make these accesses. -/
def Prepares {α : Type} (x : Exec α) (as : List Access) : Prop :=
  ∀ ⦃m m' n' : Machine⦄ ⦃a : α⦄, Supplies m m' → x.run m' = .ok a n' →
    Gets m a (fun n => SameFrames m n ∧ Supplies n n') (m.missing as) (x.run m)

/-- Computations that make these accesses before they change a frame. -/
def Performs {α : Type} (x : Exec α) (as : List Access) : Prop :=
  ∀ ⦃m m' n' : Machine⦄ ⦃a : α⦄, Supplies m m' → x.run m' = .ok a n' →
    Gets m a (fun _ => True) (m.missing as) (x.run m)

variable {α β : Type} {x : Exec α} {k : α → Exec β} {as bs : List Access} {m m' n : Machine}
  {kind : FrameKind} {s : Source}

theorem SameFrames.refl (m : Machine) : SameFrames m m := ⟨rfl, rfl, rfl⟩

theorem SameFrames.lacks (same : SameFrames m n) : n.lacks = m.lacks := by
  funext kind
  obtain ⟨temp, locals, -⟩ := same
  cases kind with
  | temporary => exact congrArg Option.isNone temp
  | locals => exact congrArg List.isEmpty locals
  | globals => rfl

theorem SameFrames.missing (same : SameFrames m n) (as : List Access) :
    n.missing as = m.missing as := by
  rw [Machine.missing, same.lacks, Machine.missing]

theorem missing_append (m : Machine) (as bs : List Access) :
    m.missing (as ++ bs) = (m.missing as).or (m.missing bs) := List.find?_append

theorem missing_of_lacks (lacking : m.lacks kind = true) (way : Way) (as : List Access) :
    m.missing (⟨way, kind⟩ :: as) = some ⟨way, kind⟩ := List.find?_cons_of_pos lacking

theorem missing_of_present (present : m.lacks kind = false) (way : Way) (as : List Access) :
    m.missing (⟨way, kind⟩ :: as) = m.missing as := List.find?_cons_of_neg (by simp [present])

theorem frameOf_of_lacks (lacking : m.lacks kind = true) :
    frameOf m kind = if kind = .temporary then .ok none else .error (.language .missingFrame) := by
  cases kind with
  | temporary => exact congrArg Except.ok (Option.isNone_iff_eq_none.mp lacking)
  | globals => cases lacking
  | locals =>
    have none : m.locals = [] := List.isEmpty_iff.mp lacking
    rw [frameOf, none]
    rfl

theorem Supplies.frameOf (supplies : Supplies m m') (present : m.lacks kind = false) :
    frameOf m' kind = frameOf m kind := by
  obtain ⟨temp, locals, kept, inner⟩ := supplies
  cases kind with
  | temporary => exact congrArg Except.ok (kept present)
  | globals => rfl
  | locals =>
    have same : (m.framed temp locals).locals = m.locals := inner present
    rw [Machine.frameOf, same, Machine.frameOf]

theorem Supplies.stack (supplies : Supplies m m') : m'.stack = m.stack := by
  cases supplies
  rfl

/-- A change that has nothing to do with frames. -/
theorem Supplies.update {u : Machine → Machine} (supplies : Supplies m m')
    (same : SameFrames m (u m))
    (commutes : ∀ temp locals, u (m.framed temp locals) = (u m).framed temp locals) :
    Supplies (u m) (u m') := by
  obtain ⟨temp, locals, kept, inner⟩ := supplies
  rw [commutes]
  refine ⟨temp, locals, ?_, ?_⟩
  · rw [same.1]
    exact kept
  · rw [same.2.1]
    exact inner

theorem Gets.behind {b : β} {kept : Machine → Prop} {missed : Option Access}
    {r : EStateM.Result Fault Machine β} (same : SameFrames m n) (gets : Gets n b kept missed r) :
    Gets m b kept missed r := by
  cases gets with
  | done holds => exact .done holds
  | missed access left => exact .missed access (same.trans left)

theorem Performs.bind (first : Prepares x as) (rest : ∀ a, Performs (k a) bs) :
    Performs (x >>= k) (as ++ bs) := by
  intro m m' n' b supplies ran
  obtain ⟨a, between', before, behind⟩ := bind_ok.mp ran
  have begun := first supplies before
  rw [EStateM.run_bind, missing_append]
  generalize x.run m = r at begun ⊢
  generalize m.missing as = missed at begun ⊢
  cases begun with
  | missed access same => exact .missed access same
  | done holds =>
    -- No frame has changed, so the same ones are missing for the rest.
    obtain ⟨same, supplies⟩ := holds
    have ended := rest a supplies behind
    rw [same.missing] at ended
    exact ended.behind same

theorem Performs.last (first : Prepares x as) (rest : ∀ a, Performs (k a) []) :
    Performs (x >>= k) as := by
  have both := bind first rest
  rwa [List.append_nil] at both

theorem never_bind (never : ∀ a m b n, (k a).run m ≠ .ok b n) :
    ∀ m b n, (x >>= k).run m ≠ .ok b n := by
  intro m b n ran
  obtain ⟨a, between, -, behind⟩ := bind_ok.mp ran
  exact never a between b n behind

/-- What cannot succeed makes whatever accesses are asked for. -/
theorem Performs.vacuous (never : ∀ m a n, x.run m ≠ .ok a n) : Performs x as :=
  fun _ _ _ _ _ ran => absurd ran (never _ _ _)

theorem never_throw (f : Fault) (m : Machine) (a : α) (n : Machine) :
    (MonadExcept.throw f : Exec α).run m ≠ .ok a n := by
  intro ran
  cases ran

theorem Performs.throw (f : Fault) : Performs (MonadExcept.throw f : Exec α) as :=
  vacuous (never_throw f)

/-- A fault stops what would follow it. -/
theorem Performs.stop (f : Fault) : Performs (MonadExcept.throw f >>= k) as := by
  refine vacuous fun m b n ran => ?_
  cases ran

/-- What always succeeds needs no frame. -/
theorem Performs.total {x : Exec Unit} (always : ∀ m, ∃ n, x.run m = .ok () n) : Performs x [] := by
  intro m m' n' _ _ _
  obtain ⟨n, ran⟩ := always m
  rw [ran]
  exact .done trivial

theorem Prepares.ofValue (r : Except Value.Fault α) : Prepares (ofValue r) [] := by
  intro m m' n' a supplies ran
  cases r with
  | error f => cases ran
  | ok b =>
    cases ran
    exact .done ⟨.refl m, supplies⟩

theorem Supplies.charged (supplies : Supplies m m') (n : Nat) :
    Supplies (m.charged n) (m'.charged n) :=
  supplies.update (u := fun m => m.charged n) ⟨rfl, rfl, rfl⟩ fun _ _ => rfl

section Lacking

variable {f : FrameRef}

theorem read_of_lacks (lacking : m.lacks f.kind = true) (name : String) :
    (read (.operand (.var f name))).run m =
      .error (Access.fault ⟨.read, f.kind⟩) (m.charged variablePrice) := by
  rw [read_variable_run, frameOf_of_lacks lacking]
  cases f.kind <;> rfl

theorem assign_of_lacks (lacking : m.lacks f.kind = true) (name : String) (what : Source) :
    (assign (.operand (.var f name)) what).run m = .error (.language .missingFrame) m := by
  rw [assign, EStateM.run_bind, frame_run, frameOf_of_lacks lacking]
  cases f.kind <;> rfl

theorem declare_of_lacks (lacking : m.lacks f.kind = true) (name : String) :
    (declare (.operand (.var f name))).run m = .error (Access.fault ⟨.declare, f.kind⟩) m := by
  rw [declare, EStateM.run_bind, frame_run, frameOf_of_lacks lacking]
  cases f.kind <;> rfl

end Lacking

theorem Prepares.read (s : Source) : Prepares (read s) (s.used .read) := by
  intro m m' n' a supplies ran
  cases s with
  | value v =>
    cases ran
    exact .done ⟨.refl m, supplies⟩
  | operand o =>
    cases o with
    | constant v =>
      cases ran
      exact .done ⟨⟨rfl, rfl, rfl⟩, supplies.charged constantPrice⟩
    | label name => cases ran
    | dataType t => cases ran
    | var f name =>
      rw [Source.used]
      cases lacking : m.lacks f.kind with
      | true =>
        rw [missing_of_lacks lacking, read_of_lacks lacking]
        exact .missed _ ⟨rfl, rfl, rfl⟩
      | false =>
        rw [read_variable_run, supplies.frameOf lacking] at ran
        rw [missing_of_present lacking, read_variable_run]
        cases found : frameOf m f.kind >>= valueIn f name with
        | error e =>
          rw [found] at ran
          cases ran
        | ok v =>
          rw [found] at ran
          cases ran
          exact .done ⟨⟨rfl, rfl, rfl⟩, supplies.charged variablePrice⟩

theorem Prepares.target (o : Operand) : Prepares (target (.operand o)) [] := by
  intro m m' n' a supplies ran
  have labels : m'.labels = m.labels := by
    cases supplies
    rfl
  rw [target_run, labels] at ran
  rw [target_run]
  cases found : m.labels.find? (Program.labelOf o) with
  | none =>
    rw [found] at ran
    cases ran
  | some n =>
    rw [found] at ran
    cases ran
    exact .done ⟨.refl m, supplies⟩

theorem Prepares.popValue : Prepares popValue [] := by
  intro m m' n' a supplies ran
  rw [popValue_run, supplies.stack] at ran
  rw [popValue_run]
  cases held : m.stack with
  | nil =>
    rw [held] at ran
    cases ran
  | cons v rest =>
    rw [held] at ran
    dsimp only at ran ⊢
    cases shown : v.text with
    | error f =>
      rw [shown] at ran
      cases ran
    | ok t =>
      rw [shown] at ran
      cases ran
      refine .done ⟨⟨rfl, rfl, rfl⟩, ?_⟩
      exact supplies.update
        (u := fun m => { m with stack := rest, operandPrice := m.operandPrice + stackPrice })
        ⟨rfl, rfl, rfl⟩ fun _ _ => rfl

theorem Prepares.readLine : Prepares readLine [] := by
  intro m m' n' a supplies ran
  have advanced := supplies.update (u := fun m => { m with input := (Text.takeLine m.input).2 })
    ⟨rfl, rfl, rfl⟩ fun _ _ => rfl
  cases supplies
  cases ran
  exact .done ⟨⟨rfl, rfl, rfl⟩, advanced⟩

/-! The commands -/

/-- The summary has a text exactly if each of its parts has one. -/
theorem summary_ok_iff : (∃ t, m.summary = .ok t) ↔
    (∃ t, optionalFrameText (m.temp.getD []) = .ok t) ∧
      (∀ f ∈ m.locals.head?, ∃ t, frameText f = .ok t) ∧
      (∃ t, optionalFrameText m.globals = .ok t) ∧ ∃ ts, m.stack.mapM Value.text = .ok ts := by
  unfold summary
  cases optionalFrameText (m.temp.getD []) with
  | error e => simp [bind, Except.bind]
  | ok temp =>
    cases m.locals with
    | nil =>
      cases optionalFrameText m.globals <;> cases m.stack.mapM Value.text <;>
        simp [bind, Except.bind, pure, Except.pure]
    | cons f fs =>
      cases shown : frameText f <;> cases optionalFrameText m.globals <;>
        cases m.stack.mapM Value.text <;> simp [shown, bind, Except.bind, pure, Except.pure]

theorem Supplies.summary (supplies : Supplies m m') (shown : ∃ t, m'.summary = .ok t) :
    ∃ t, m.summary = .ok t := by
  obtain ⟨temp, locals, kept, inner⟩ := supplies
  obtain ⟨tempText, localText, globalText, stackText⟩ := summary_ok_iff.mp shown
  refine summary_ok_iff.mpr ⟨?_, ?_, globalText, stackText⟩
  · cases held : m.temp with
    | none => exact ⟨_, rfl⟩
    | some f =>
      have same : temp = m.temp := kept (by rw [held, Option.isNone_some])
      rw [← held, ← same]
      exact tempText
  · intro f first
    have some : m.locals.isEmpty = false := by
      rw [List.isEmpty_eq_false_iff]
      rintro none
      rw [none] at first
      cases first
    rw [← inner some] at first
    exact localText f first

namespace Performs

variable {f : FrameRef} {o : Operand} {a b d : Source}

/-- A frame that is there is the same in both machines. -/
theorem inFrame {way : Way} {k : Option Frame → Exec β}
    (fails : ∀ {m : Machine}, m.lacks kind = true →
      (frame kind >>= k).run m = .error (Access.fault ⟨way, kind⟩) m)
    (never : ∀ m b n, (k none).run m ≠ .ok b n) (rest : ∀ d, Performs (k (some d)) bs) :
    Performs (frame kind >>= k) (⟨way, kind⟩ :: bs) := by
  intro m m' n' b supplies ran
  cases lacking : m.lacks kind with
  | true =>
    rw [fails lacking, missing_of_lacks lacking]
    exact .missed _ (.refl m)
  | false =>
    rw [EStateM.run_bind, frame_run, supplies.frameOf lacking] at ran
    rw [EStateM.run_bind, frame_run, missing_of_present lacking]
    cases found : frameOf m kind with
    | error e =>
      rw [found] at ran
      cases ran
    | ok d =>
      rw [found] at ran
      cases d with
      | none => exact absurd ran (never _ _ _)
      | some d => exact rest d supplies ran

theorem assign (target what : Source) :
    Performs (assign target what) (target.used .assign ++ what.used .read) := by
  cases target with
  | value v => exact throw _
  | operand o =>
    cases o with
    | constant v => exact throw _
    | label name => exact throw _
    | dataType t => exact throw _
    | var f name =>
      refine inFrame (fun lacking => assign_of_lacks lacking name what) (never_throw _) fun d => ?_
      dsimp only
      split
      · exact stop _
      · exact last (.read what) fun v => total fun _ => ⟨_, rfl⟩

theorem assignValue (target : Source) (v : Value) :
    Performs (Machine.assign target (.value v)) (target.used .assign) := by
  have assigned : Performs (Machine.assign target (.value v)) (target.used .assign ++ []) :=
    assign target (.value v)
  rwa [List.append_nil] at assigned

theorem declare (s : Source) : Performs (declare s) (s.used .declare) := by
  cases s with
  | value v => exact throw _
  | operand o =>
    cases o with
    | constant v => exact throw _
    | label name => exact throw _
    | dataType t => exact throw _
    | var f name =>
      refine inFrame (fun lacking => declare_of_lacks lacking name) (never_throw _) fun d => ?_
      dsimp only
      split
      · exact stop _
      · exact total fun _ => ⟨_, rfl⟩

theorem jump (o : Operand) : Performs (jump (.operand o)) [] :=
  bind (.target o) fun _ => total fun _ => ⟨_, rfl⟩

theorem call (o : Operand) : Performs (call (.operand o)) [] :=
  bind (.target o) fun _ => total fun _ => ⟨_, rfl⟩

theorem returnBack : Performs returnBack [] := by
  intro m m' n' u supplies ran
  have calls : m'.calls = m.calls := by
    cases supplies
    rfl
  rw [Machine.returnBack, EStateM.run_bind, EStateM.run_get] at ran ⊢
  dsimp only at ran ⊢
  rw [calls] at ran
  cases open' : m.calls with
  | nil =>
    rw [open'] at ran
    cases ran
  | cons c cs => exact .done trivial

theorem jumpIf (label : Operand) (left right : Source) (equal : Bool) :
    Performs (jumpIf (.operand label) left right equal) (left.used .read ++ right.used .read) := by
  refine bind (.read left) fun l => last (.read right) fun r => ?_
  split
  · exact jump label
  · exact total fun m => ⟨m, rfl⟩

theorem pushFrame : Performs pushFrame [⟨.shift, .temporary⟩] := by
  intro m m' n' u _ _
  rw [Machine.pushFrame, EStateM.run_bind, EStateM.run_get]
  cases held : m.temp with
  | none =>
    have lacking : m.lacks .temporary = true := Option.isNone_iff_eq_none.mpr held
    rw [missing_of_lacks lacking]
    dsimp only
    rw [held]
    exact .missed ⟨.shift, .temporary⟩ (.refl m)
  | some f =>
    have present : m.lacks .temporary = false := by rw [lacks, held, Option.isNone_some]
    rw [missing_of_present present]
    dsimp only
    rw [held]
    exact .done trivial

theorem popFrame : Performs popFrame [⟨.shift, .locals⟩] := by
  intro m m' n' u _ _
  rw [Machine.popFrame, EStateM.run_bind, EStateM.run_get]
  cases held : m.locals with
  | nil =>
    have lacking : m.lacks .locals = true := List.isEmpty_iff.mpr held
    rw [missing_of_lacks lacking]
    dsimp only
    rw [held]
    exact .missed ⟨.shift, .locals⟩ (.refl m)
  | cons f fs =>
    have present : m.lacks .locals = false := by rw [lacks, held, List.isEmpty_cons]
    rw [missing_of_present present]
    dsimp only
    rw [held]
    exact .done trivial

theorem push (s : Source) : Performs (push s) (s.used .read) :=
  last (.read s) fun v => bind (.ofValue v.text) fun _ => total fun _ => ⟨_, rfl⟩

theorem pop (o : Operand) :
    Performs (discard (pop (.operand o))) ((Source.operand o).used .assign) := by
  intro m m' n' u supplies ran
  rw [discard_run, pop_run, supplies.stack] at ran
  rw [discard_run, pop_run]
  cases held : m.stack with
  | nil =>
    rw [held] at ran
    cases ran
  | cons v rest =>
    rw [held] at ran
    dsimp only at ran ⊢
    cases shown : v.text with
    | error f =>
      rw [shown] at ran
      cases ran
    | ok t =>
      rw [shown] at ran
      simp only [isTarget, ↓reduceIte] at ran ⊢
      cases stored : (Machine.assign (.operand o) (.value v)).run m' with
      | error f n =>
        rw [stored] at ran
        cases ran
      | ok w n =>
        have gets := assignValue (.operand o) v supplies stored
        generalize (Machine.assign (.operand o) (.value v)).run m = r at gets ⊢
        generalize m.missing _ = missed at gets ⊢
        cases gets with
        | done => exact .done trivial
        | missed access same => exact .missed access same

theorem emit (c : Channel) (text : Text) : Performs (emit c text) [] := by
  intro m m' n' u supplies ran
  have interrupt : m'.interruptOn = m.interruptOn := by
    cases supplies
    rfl
  have steps (m : Machine) : (Machine.emit c text).run m =
      (if c = .out && m.interruptOn = some text then MonadExcept.throw .interrupted
        else Pure.pure () :
        Exec Unit).run { m with written := (c, text) :: m.written } := rfl
  rw [steps, interrupt] at ran
  rw [steps]
  split at ran
  · cases ran
  · rename_i quiet
    rw [if_neg quiet]
    exact .done trivial

theorem write (s : Source) : Performs (write s) (s.used .read) :=
  last (.read s) fun v => bind (.ofValue v.printed) fun text => emit .out text

theorem writeDebug (s : Source) : Performs (writeDebug s) (s.used .read) :=
  last (.read s) fun v => bind (.ofValue v.text) fun _ => emit .err _

theorem writeSummary : Performs writeSummary [] := by
  intro m m' n' u supplies ran
  have whole (m : Machine) : Machine.writeSummary.run m =
      (Machine.ofValue m.summary >>= fun s => Machine.emit .err (s ++ "\n")).run m := rfl
  rw [whole] at ran
  obtain ⟨t, between, shown, -⟩ := bind_ok.mp ran
  have text : ∃ t, m'.summary = .ok t := by
    cases found : m'.summary with
    | error e =>
      rw [found] at shown
      cases shown
    | ok t => exact ⟨t, rfl⟩
  obtain ⟨t, text⟩ := supplies.summary text
  rw [whole, text]
  exact .done trivial

theorem writePrice : Performs writePrice [] := total fun _ => ⟨_, rfl⟩

theorem readInput (target type : Source) :
    Performs (readInput target type) (target.used .assign) := by
  refine bind .readLine fun s => ?_
  cases type with
  | value v => exact throw _
  | operand o =>
    cases o with
    | constant v => exact throw _
    | var f name => exact throw _
    | label name => exact throw _
    | dataType t =>
      cases t with
      | string =>
        dsimp only
        split
        · exact stop _
        · exact assignValue target _
      | int => exact assignValue target _
      | bool => exact assignValue target _
      | float =>
        dsimp only
        split
        · exact throw _
        · split <;> exact assignValue target _

theorem binary (f : Value → Value → Except Value.Fault Value) (target left right : Source) :
    Performs (binary f target left right) (left.used .read ++ right.used .read ++
        target.used .assign) := by
  rw [List.append_assoc]
  exact bind (.read left) fun l => bind (.read right) fun r => bind (.ofValue (f l r)) fun v =>
    assignValue target v

theorem unary (f : Value → Except Value.Fault Value) (target source : Source) :
    Performs (unary f target source) (source.used .read ++ target.used .assign) :=
  bind (.read source) fun v => bind (.ofValue (f v)) fun w => assignValue target w

theorem typeName (target source : Source) :
    Performs (typeName target source)
      (source.used .read ++ source.used .read ++ target.used .assign) := by
  rw [List.append_assoc]
  exact bind (.read source) fun _ => bind (.read source) fun v => assignValue target _

theorem textLength (target text : Source) :
    Performs (textLength target text) (text.used .read ++ target.used .assign) :=
  bind (.read text) fun v => bind (.ofValue v.length) fun n => assignValue target n

-- A bad index is looked up once more for the message, but then the command has failed.
theorem getChar (target text index : Source) :
    Performs (getChar target text index)
      (text.used .read ++ index.used .read ++ target.used .assign) := by
  rw [List.append_assoc]
  refine bind (.read text) fun s => bind (.read index) fun i => ?_
  split
  · exact assignValue target _
  · exact vacuous (never_bind fun _ => never_throw _)
  · exact vacuous (never_bind fun _ => never_throw _)
  · exact throw _

theorem setChar (target index source : Source) : Performs (setChar target index source) as :=
  vacuous (never_bind fun _ => never_bind fun _ => never_bind fun _ => never_bind fun _ =>
    never_throw _)

theorem binaryStack (f : Value → Value → Except Value.Fault Value) : Performs (binaryStack f) [] :=
  bind .popValue fun r => bind .popValue fun l => bind (.ofValue (f l r)) fun v => push (.value v)

theorem unaryStack (f : Value → Except Value.Fault Value) : Performs (unaryStack f) [] :=
  bind .popValue fun x => bind (.ofValue (f x)) fun v => push (.value v)

theorem jumpIfStack (label : Operand) (equal : Bool) :
    Performs (jumpIfStack (.operand label) equal) [] :=
  bind .popValue fun l => bind .popValue fun r => jumpIf label (.value l) (.value r) equal

theorem commandWithin (longest : Nat) (c : Opcode) (operands : List Operand) :
    Performs (commandWithin longest c operands) (accesses c operands) := by
  match operands with
  | [] =>
    cases c with
    | createFrame => exact total fun _ => ⟨_, rfl⟩
    | pushFrame => exact pushFrame
    | popFrame => exact popFrame
    | ret => exact returnBack
    | pop => exact last .popValue fun _ => total fun _ => ⟨_, rfl⟩
    | clear => exact total fun _ => ⟨_, rfl⟩
    | binaryStack op => exact binaryStack _
    | unaryStack op => exact unaryStack _
    | «break» => exact writeSummary
    | groot => exact writePrice
    | _ => exact throw _
  | [a] =>
    cases c with
    | defVar => exact declare _
    | jump => exact jump a
    | call => exact call a
    | label => exact total fun _ => ⟨_, rfl⟩
    | jumpIfStack equal => exact jumpIfStack a equal
    | write => exact write _
    | push => exact push _
    | pop => exact pop a
    | dprint => exact writeDebug _
    | _ => exact throw _
  | [a, b] =>
    cases c with
    | move => exact assign _ _
    | read => exact readInput _ _
    | unary op => exact unary _ _ _
    | type => exact typeName _ _
    | length => exact textLength _ _
    | _ => exact throw _
  | [a, b, d] =>
    cases c with
    | jumpIf equal => exact jumpIf a _ _ equal
    | binary op => exact binary _ _ _ _
    | concat => exact binary _ _ _ _
    | getChar => exact getChar _ _ _
    | setChar => exact setChar _ _ _
    | _ => exact throw _
  | _ :: _ :: _ :: _ :: _ => cases c <;> exact throw _

theorem command (c : Opcode) (operands : List Operand) :
    Performs (command c operands) (accesses c operands) := by
  intro m m' n' a supplies ran
  have longest : m'.longest = m.longest := by
    cases supplies
    rfl
  change (Machine.commandWithin m'.longest c operands).run m' = .ok a n' at ran
  rw [longest] at ran
  exact commandWithin m.longest c operands supplies ran

end Performs

theorem located_access (i : Instruction) (a : Access) :
    located i a.fault =
      if a.blind then { fault := a.fault } else ⟨.language .missingFrame, .number i.index,
        some i.source⟩ := by
  obtain ⟨way, kind⟩ := a
  cases way <;> cases kind <;> rfl

/-- Access to a variable whose frame is missing fails and changes no frame, and an instruction that
would succeed if the frames were there fails at its first access to a missing one. All these
failures are about the frame and on the line, except those of reading or declaring a variable of the
temporary frame. -/
theorem missing_frame_reported (m : Machine) :
    (∀ (f : FrameRef) (name : String), m.lacks f.kind = true →
      (read (.operand (.var f name))).run m =
        .error (Access.fault ⟨.read, f.kind⟩) (m.charged variablePrice) ∧
      (∀ what, (assign (.operand (.var f name)) what).run m = .error (.language .missingFrame) m) ∧
      (declare (.operand (.var f name))).run m = .error (Access.fault ⟨.declare, f.kind⟩) m) ∧
    ∀ (i : Instruction) (m' n' : Machine), Supplies m m' → (execute i).run m' = .ok () n' →
      (m.missing (accesses i.opcode i.operands) = none → ∃ n, (execute i).run m = .ok () n) ∧
      ∀ a, m.missing (accesses i.opcode i.operands) = some a →
        ∃ n, (execute i).run m = .error a.fault n ∧ SameFrames m n ∧
          located i a.fault = if a.blind then { fault := a.fault }
            else ⟨.language .missingFrame, .number i.index, some i.source⟩ := by
  constructor
  · intro f name lacking
    exact ⟨read_of_lacks lacking name, assign_of_lacks lacking name, declare_of_lacks lacking name⟩
  · intro i m' n' supplies ran
    obtain ⟨between, commanded, -⟩ := execute_ok.mp ran
    have gets := Performs.command i.opcode i.operands supplies commanded
    generalize reached : (command i.opcode i.operands).run m = r at gets
    constructor
    · intro found
      rw [found] at gets
      cases gets with
      | done => exact ⟨_, execute_ok.mpr ⟨_, reached, rfl⟩⟩
    · intro a missed
      rw [missed] at gets
      cases gets with
      | missed _ same => exact ⟨_, execute_error.mpr reached, same, located_access i a⟩

/-- A command on the variable x of the temporary frame. -/
def onTemporary (opcode : Opcode) (more : List Operand) (source : String) : Instruction :=
  ⟨opcode, .var ⟨.temporary, true, true⟩ "x" :: more, 2, source⟩

/-- The machine at the start, but with a temporary frame. -/
def withTemporary (f : Frame) : Machine := framed {} (some f) []

theorem withTemporary_supplies (f : Frame) : Supplies {} (withTemporary f) := .intro _ _ nofun nofun

theorem move_without_frame :
    (∃ n, (execute (onTemporary .move [.constant (.int 1)] "MOVE TF@x int@1")).run
      (withTemporary [("x", .none)]) = .ok () n) ∧
    (∃ n, (execute (onTemporary .move [.constant (.int 1)] "MOVE TF@x int@1")).run {} =
      .error (.language .missingFrame) n ∧ SameFrames {} n ∧
      located (onTemporary .move [.constant (.int 1)] "MOVE TF@x int@1") (.language .missingFrame) =
        ⟨.language .missingFrame, .number 2, some "MOVE TF@x int@1"⟩) ∧
    (declare (.operand (.var ⟨.locals, true, true⟩ "x"))).run {} =
      .error (.language .missingFrame) {} := by
  refine ⟨⟨_, rfl⟩, ?_, ?_⟩
  · exact ((missing_frame_reported {}).2 _ _ _ (withTemporary_supplies [("x", .none)]) rfl).2
      ⟨.assign, .temporary⟩ rfl
  · exact ((missing_frame_reported {}).1 ⟨.locals, true, true⟩ "x" rfl).2.2

/-- With a temporary frame the variable is written and another one declared; without it both fail,
and not for the missing frame. -/
theorem temporary_frame_overlooked :
    (∃ n, (execute (onTemporary .write [] "WRITE TF@x")).run (withTemporary [("x", .bool true)]) =
        .ok () n) ∧
    (∃ n, (execute (onTemporary .write [] "WRITE TF@x")).run {} = .error .temporaryRead n) ∧
    located (onTemporary .write [] "WRITE TF@x") .temporaryRead = { fault := .temporaryRead } ∧
    (∃ n, (execute (onTemporary .defVar [] "DEFVAR TF@x")).run (withTemporary []) = .ok () n) ∧
    (∃ n, (execute (onTemporary .defVar [] "DEFVAR TF@x")).run {} =
        .error .temporaryDeclaration n) ∧
    located (onTemporary .defVar [] "DEFVAR TF@x") .temporaryDeclaration =
      { fault := .temporaryDeclaration } :=
  ⟨⟨_, rfl⟩, ⟨_, rfl⟩, rfl, ⟨_, rfl⟩, ⟨_, rfl⟩, rfl⟩

end TacBench.Machine
