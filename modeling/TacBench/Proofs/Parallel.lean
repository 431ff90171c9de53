import Mathlib.Data.List.Forall2
import TacBench.Proofs.Control

/-! Two computations side by side. No command looks at the line of the source, none but the command
that reads looks at the input, and the spelling of a frame shows only in the report of a fault.
Machines that differ in nothing else therefore go through the same commands in the same way. -/
namespace TacBench.Machine

variable {α β : Type}

/-- Which spellings of a frame pass for one another, and which faults then do. -/
structure Tolerance where
  frames : FrameRef → FrameRef → Prop
  faults : Fault → Fault → Prop
  kind : ∀ {f f'}, frames f f' → f.kind = f'.kind
  sameFrame : ∀ f, frames f f
  sameFault : ∀ e, faults e e
  undefined : ∀ {f f'} (name : String), frames f f' → faults
    (.language (.undefinedVariable f.spelling name))
      (.language (.undefinedVariable f'.spelling name))
  undeclared : ∀ {f f'} (name : String), frames f f' → faults
    (.language (.undeclaredVariable f.spelling name))
      (.language (.undeclaredVariable f'.spelling name))
  interrupted : ∀ {e e'}, faults e e' → (e = .interrupted ↔ e' = .interrupted)

namespace Tolerance

/-- Every frame is spelled as it is. -/
def strict : Tolerance where
  frames := Eq
  faults := Eq
  kind same := congrArg FrameRef.kind same
  sameFrame _ := rfl
  sameFault _ := rfl
  undefined name same := by rw [same]
  undeclared name same := by rw [same]
  interrupted same := by rw [same]

inductive Operands (t : Tolerance) : Operand → Operand → Prop where
  | constant (v : Value) : Operands t (.constant v) (.constant v)
  | label (name : String) : Operands t (.label name) (.label name)
  | dataType (type : DataType) : Operands t (.dataType type) (.dataType type)
  | var {f f' : FrameRef} (spelled : t.frames f f') (name : String) :
      Operands t (.var f name) (.var f' name)

inductive Sources (t : Tolerance) : Source → Source → Prop where
  | operand {o o' : Operand} (like : t.Operands o o') : Sources t (.operand o) (.operand o')
  | value (v : Value) : Sources t (.value v) (.value v)

/-- Instructions that do the same, on whichever lines they stand. -/
structure Counterparts (t : Tolerance) (i i' : Instruction) : Prop where
  opcode : i.opcode = i'.opcode
  operands : List.Forall₂ t.Operands i.operands i'.operands

variable {t : Tolerance}

theorem Operands.refl (o : Operand) : t.Operands o o := by
  cases o with
  | constant v => exact .constant v
  | var f name => exact .var (t.sameFrame f) name
  | label name => exact .label name
  | dataType type => exact .dataType type

theorem Operands.labelOf {o o' : Operand} (like : t.Operands o o') :
    Program.labelOf o = Program.labelOf o' := by
  cases like <;> rfl

end Tolerance

/-- The machine with other input before it and another line behind it. -/
def displaced (m : Machine) (input : List Char) (line : Int) : Machine := { m with input, line }

theorem storeIn_displaced (k : FrameKind) (name : String) (v : Value) (m : Machine)
    (input : List Char) (line : Int) :
    storeIn k name v (m.displaced input line) = (storeIn k name v m).displaced input line := by
  cases k with
  | temporary => rfl
  | globals => rfl
  | locals =>
    obtain ⟨temp, locals⟩ := m
    cases locals <;> rfl

theorem advance_displaced (before after : Machine) (input rest : List Char) (line line' : Int) :
    advance (before.displaced input line) (after.displaced rest line') =
      (advance before after).displaced rest line' := by
  have counters : (after.displaced rest line').pc = (before.displaced input line).pc ↔
      after.pc = before.pc := Iff.rfl
  by_cases same : after.pc = before.pc
  · rw [advance, advance, if_pos (counters.mpr same), if_pos same]
    rfl
  · rw [advance, advance, if_neg (same ∘ counters.mp), if_neg same]

/-- Two ends of a computation that differ no more than what led to them. -/
inductive Matches (t : Tolerance) (input : List Char) (line : Int) :
    EStateM.Result Fault Machine α → EStateM.Result Fault Machine α → Prop where
  | ok (a : α) (m : Machine) : Matches t input line (.ok a m) (.ok a (m.displaced input line))
  | error {e e' : Fault} (like : t.faults e e') (m : Machine) :
      Matches t input line (.error e m) (.error e' (m.displaced input line))

def Parallel (t : Tolerance) (input : List Char) (line : Int) (x y : Exec α) : Prop :=
  ∀ m, Matches t input line (x.run m) (y.run (m.displaced input line))

namespace Parallel

variable {t : Tolerance} {input : List Char} {line : Int} {x y : Exec α} {f g : α → Exec β}
  {s s' a a' b b' d d' : Source}

theorem pure (a : α) : Parallel t input line (Pure.pure a : Exec α) (Pure.pure a) :=
  fun m => .ok a m

theorem throw {e e' : Fault} (like : t.faults e e') :
    Parallel t input line (MonadExcept.throw e : Exec α) (MonadExcept.throw e') :=
  fun m => .error like m

theorem refuse (e : Fault) :
    Parallel t input line (MonadExcept.throw e : Exec α) (MonadExcept.throw e) :=
  throw (t.sameFault e)

theorem bind (first : Parallel t input line x y) (rest : ∀ a, Parallel t input line (f a) (g a)) :
    Parallel t input line (x >>= f) (y >>= g) := by
  intro m
  have both := first m
  rw [EStateM.run_bind, EStateM.run_bind]
  generalize x.run m = r at both ⊢
  generalize y.run (m.displaced input line) = r' at both ⊢
  cases both with
  | ok a between => exact rest a between
  | error like between => exact .error like between

theorem discard (first : Parallel t input line x y) :
    Parallel t input line (discard x) (discard y) := bind first fun _ => pure _

theorem inspect {f g : Machine → Exec α}
    (each : ∀ m, Parallel t input line (f m) (g (m.displaced input line))) :
    Parallel t input line (get >>= f) (get >>= g) := fun m => each m m

theorem update {f : Machine → Machine}
    (commutes : ∀ m, f (m.displaced input line) = (f m).displaced input line) :
    Parallel t input line (modify f : Exec Unit) (modify f) := by
  intro m
  have ends : Matches t input line (.ok () (f m)) (.ok () ((f m).displaced input line)) :=
    .ok () (f m)
  rwa [← commutes m] at ends

theorem put (x : Machine) :
    Parallel t input line (set x : Exec Unit) (set (x.displaced input line)) :=
  fun _ => .ok () x

theorem ofValue (r : Except Value.Fault α) : Parallel t input line (ofValue r) (ofValue r) := by
  cases r with
  | ok a => exact pure a
  | error f => exact refuse _

theorem charge (n : Nat) : Parallel t input line (charge n) (charge n) := update fun _ => rfl

theorem frame (k : FrameKind) : Parallel t input line (frame k) (frame k) := by
  refine inspect fun m => ?_
  cases k with
  | globals => exact pure _
  | temporary => exact pure _
  | locals =>
    obtain ⟨temp, locals⟩ := m
    cases locals with
    | nil => exact refuse _
    | cons d rest => exact pure _

theorem read (like : t.Sources s s') : Parallel t input line (read s) (read s') := by
  cases like with
  | value v => exact pure v
  | operand like =>
    cases like with
    | constant v => exact bind (charge _) fun _ => pure v
    | label name => exact refuse _
    | dataType type => exact refuse _
    | @var f f' spelled name =>
      have frames : Parallel t input line (Machine.frame f.kind) (Machine.frame f'.kind) := by
        rw [t.kind spelled]
        exact frame _
      refine bind (charge _) fun _ => bind frames fun found => ?_
      cases found with
      | none => exact refuse _
      | some d =>
        dsimp only
        cases d.find? name with
        | none => exact refuse _
        | some v =>
          cases v with
          | none => exact throw (t.undefined name spelled)
          | _ => exact pure _

theorem store (k : FrameKind) (name : String) (v : Value) :
    Parallel t input line (modify (storeIn k name v) : Exec Unit) (modify (storeIn k name v)) :=
  update fun m => storeIn_displaced k name v m input line

theorem assign (target : t.Sources a a') (what : t.Sources b b') :
    Parallel t input line (assign a b) (assign a' b') := by
  cases target with
  | value v => exact refuse _
  | operand target =>
    cases target with
    | constant v => exact refuse _
    | label name => exact refuse _
    | dataType type => exact refuse _
    | @var f f' spelled name =>
      have frames : Parallel t input line (Machine.frame f.kind) (Machine.frame f'.kind) := by
        rw [t.kind spelled]
        exact frame _
      have missing : (b != .value .none) = (b' != .value .none) := by
        cases what with
        | operand _ => rfl
        | value v => rfl
      refine bind frames fun found => ?_
      cases found with
      | none => exact refuse _
      | some d =>
        dsimp only
        rw [missing, t.kind spelled]
        split
        · exact bind (throw (t.undeclared name spelled)) fun _ =>
            bind (read what) fun v => bind (store _ name v) fun _ => charge _
        · exact bind (read what) fun v => bind (store _ name v) fun _ => charge _

theorem assignValue (target : t.Sources a a') (v : Value) :
    Parallel t input line (Machine.assign a (.value v)) (Machine.assign a' (.value v)) :=
  assign target (.value v)

theorem declare (like : t.Sources s s') : Parallel t input line (declare s) (declare s') := by
  cases like with
  | value v => exact refuse _
  | operand like =>
    cases like with
    | constant v => exact refuse _
    | label name => exact refuse _
    | dataType type => exact refuse _
    | @var f f' spelled name =>
      have frames : Parallel t input line (Machine.frame f.kind) (Machine.frame f'.kind) := by
        rw [t.kind spelled]
        exact frame _
      refine bind frames fun found => ?_
      cases found with
      | none => exact refuse _
      | some d =>
        dsimp only
        rw [t.kind spelled]
        split
        · exact bind (refuse _) fun _ => bind (store _ name _) fun _ => charge _
        · exact bind (store _ name _) fun _ => charge _

theorem target (like : t.Sources s s') : Parallel t input line (target s) (target s') := by
  cases like with
  | value v => exact refuse _
  | operand like =>
    intro m
    have table : (m.displaced input line).labels = m.labels := rfl
    rw [target_run, target_run, ← like.labelOf, table]
    split
    · exact pure _ m
    · exact refuse _ m

theorem jump (like : t.Sources s s') : Parallel t input line (jump s) (jump s') :=
  bind (target like) fun _ => update fun _ => rfl

theorem call (like : t.Sources s s') : Parallel t input line (call s) (call s') :=
  bind (target like) fun _ => update fun _ => rfl

theorem returnBack : Parallel t input line returnBack returnBack := by
  refine inspect fun m => ?_
  obtain ⟨temp, locals, globals, calls⟩ := m
  cases calls with
  | nil => exact refuse _
  | cons c cs => exact put _

theorem jumpIf (label : t.Sources s s') (left : t.Sources a a') (right : t.Sources b b')
    (equal : Bool) :
    Parallel t input line (jumpIf s a b equal) (jumpIf s' a' b' equal) := by
  refine bind (read left) fun l => bind (read right) fun r => ?_
  split
  · exact jump label
  · exact pure _

theorem createFrame : Parallel t input line createFrame createFrame := update fun _ => rfl

theorem pushFrame : Parallel t input line pushFrame pushFrame := by
  refine inspect fun m => ?_
  obtain ⟨temp⟩ := m
  cases temp with
  | none => exact refuse _
  | some f => exact put _

theorem popFrame : Parallel t input line popFrame popFrame := by
  refine inspect fun m => ?_
  obtain ⟨temp, locals⟩ := m
  cases locals with
  | nil => exact refuse _
  | cons f fs => exact put _

theorem push (like : t.Sources s s') : Parallel t input line (push s) (push s') :=
  bind (read like) fun _ => bind (ofValue _) fun _ => update fun _ => rfl

theorem pop (like : t.Sources s s') : Parallel t input line (pop s) (pop s') := by
  have target : isTarget s = isTarget s' := by
    cases like with
    | operand _ => rfl
    | value v => rfl
  refine inspect fun m => ?_
  obtain ⟨temp, locals, globals, calls, stack⟩ := m
  cases stack with
  | nil => exact refuse _
  | cons v rest =>
    refine bind (ofValue _) fun _ => ?_
    rw [target]
    split
    · exact bind (assignValue like v) fun _ => bind (update fun _ => rfl) fun _ => pure v
    · exact bind (update fun _ => rfl) fun _ => pure v

theorem popValue : Parallel t input line popValue popValue := pop (.value _)

theorem getChar (target : t.Sources s s') (text : t.Sources a a') (index : t.Sources b b') :
    Parallel t input line (getChar s a b) (getChar s' a' b') := by
  refine bind (read text) fun v => bind (read index) fun i => ?_
  split
  · exact assignValue target _
  · exact bind (read index) fun _ => refuse _
  · exact bind (read index) fun _ => refuse _
  · exact refuse _

theorem setChar (target : t.Sources s s') (index : t.Sources a a') (source : t.Sources b b') :
    Parallel t input line (setChar s a b) (setChar s' a' b') :=
  bind (read target) fun _ => bind (read source) fun _ => bind (ofValue _) fun _ =>
    bind (read index) fun _ => refuse _

theorem textLength (target : t.Sources s s') (text : t.Sources a a') :
    Parallel t input line (textLength s a) (textLength s' a') :=
  bind (read text) fun _ => bind (ofValue _) fun _ => assignValue target _

theorem emit (c : Channel) (text : Text) : Parallel t input line (emit c text) (emit c text) := by
  refine bind (update fun _ => rfl) fun _ => inspect fun m => ?_
  dsimp only [displaced]
  split
  · exact refuse _
  · exact pure _

theorem write (like : t.Sources s s') : Parallel t input line (write s) (write s') :=
  bind (read like) fun _ => bind (ofValue _) fun _ => emit _ _

theorem binary (f : Value → Value → Except Value.Fault Value) (target : t.Sources s s')
    (left : t.Sources a a') (right : t.Sources b b') :
    Parallel t input line (binary f s a b) (binary f s' a' b') :=
  bind (read left) fun _ => bind (read right) fun _ => bind (ofValue _) fun _ =>
    assignValue target _

theorem binaryStack (f : Value → Value → Except Value.Fault Value) :
    Parallel t input line (binaryStack f) (binaryStack f) :=
  bind popValue fun _ => bind popValue fun _ => bind (ofValue _) fun _ => push (.value _)

theorem unary (f : Value → Except Value.Fault Value) (target : t.Sources s s')
    (source : t.Sources a a') :
    Parallel t input line (unary f s a) (unary f s' a') :=
  bind (read source) fun _ => bind (ofValue _) fun _ => assignValue target _

theorem unaryStack (f : Value → Except Value.Fault Value) :
    Parallel t input line (unaryStack f) (unaryStack f) :=
  bind popValue fun _ => bind (ofValue _) fun _ => push (.value _)

theorem typeName (target : t.Sources s s') (source : t.Sources a a') :
    Parallel t input line (typeName s a) (typeName s' a') :=
  bind (read source) fun _ => bind (read source) fun _ => assignValue target _

theorem jumpIfStack (label : t.Sources s s') (equal : Bool) :
    Parallel t input line (jumpIfStack s equal) (jumpIfStack s' equal) :=
  bind popValue fun _ => bind popValue fun _ => jumpIf label (.value _) (.value _) equal

theorem writeSummary : Parallel t input line writeSummary writeSummary :=
  inspect fun _ => bind (ofValue _) fun _ => emit _ _

theorem writeDebug (like : t.Sources s s') : Parallel t input line (writeDebug s) (writeDebug s') :=
  bind (read like) fun _ => bind (ofValue _) fun _ => emit _ _

theorem writePrice : Parallel t input line writePrice writePrice := inspect fun _ => emit _ _

-- A command with the wrong number of operands fails in both, whatever it is.
theorem commandWithin {c : Opcode} {os os' : List Operand} (like : List.Forall₂ t.Operands os os')
    (other : c ≠ .read) (longest : Nat) :
    Parallel t input line (commandWithin longest c os) (commandWithin longest c os') := by
  have refused : Parallel t input line (MonadExcept.throw .operandCount : Exec Unit)
      (MonadExcept.throw .operandCount) := refuse _
  rcases like with _ | ⟨first, _ | ⟨second, _ | ⟨third, _ | _⟩⟩⟩
  · cases c with
    | createFrame => exact createFrame
    | pushFrame => exact pushFrame
    | popFrame => exact popFrame
    | ret => exact returnBack
    | pop => exact discard popValue
    | clear => exact update fun _ => rfl
    | binaryStack op => exact binaryStack _
    | unaryStack op => exact unaryStack _
    | «break» => exact writeSummary
    | groot => exact writePrice
    | _ => exact refused
  · have first := Tolerance.Sources.operand first
    cases c with
    | defVar => exact declare first
    | jump => exact jump first
    | call => exact call first
    | label => exact pure ()
    | jumpIfStack equal => exact jumpIfStack first equal
    | write => exact write first
    | push => exact push first
    | pop => exact discard (pop first)
    | dprint => exact writeDebug first
    | _ => exact refused
  · have first := Tolerance.Sources.operand first
    have second := Tolerance.Sources.operand second
    cases c with
    | move => exact assign first second
    | read => exact absurd rfl other
    | unary op => exact unary _ first second
    | type => exact typeName first second
    | length => exact textLength first second
    | _ => exact refused
  · have first := Tolerance.Sources.operand first
    have second := Tolerance.Sources.operand second
    have third := Tolerance.Sources.operand third
    cases c with
    | jumpIf equal => exact jumpIf first second third equal
    | binary op => exact binary _ first second third
    | concat => exact binary _ first second third
    | getChar => exact getChar first second third
    | setChar => exact setChar first second third
    | _ => exact refused
  · cases c <;> exact refused

theorem command {c : Opcode} {os os' : List Operand} (like : List.Forall₂ t.Operands os os')
    (other : c ≠ .read) : Parallel t input line (command c os) (command c os') :=
  inspect fun m => commandWithin like other m.longest

end Parallel

open Text

variable {t : Tolerance} {input : List Char} {line : Int} {m : Machine}

/-- The same line is read on both sides, and what is left of the two inputs may differ again. -/
theorem readLine_matches {f g : List Char → Exec α}
    (rest : ∀ text, Parallel t (takeLine input).2 line (f text) (g text))
    (agrees : strip (takeLine m.input).1 = strip (takeLine input).1) :
    Matches t (takeLine input).2 line ((readLine >>= f).run m)
      ((readLine >>= g).run (m.displaced input line)) := by
  have taken := rest (strip (takeLine m.input).1) { m with input := (takeLine m.input).2 }
  have same : (readLine >>= g).run (m.displaced input line) =
      (g (strip (takeLine input).1)).run
        { m.displaced input line with input := (takeLine input).2 } := rfl
  rw [same, ← agrees]
  exact taken

theorem readInput_matches {s s' a a' : Source} (target : t.Sources s s') (type : t.Sources a a')
    (agrees : strip (takeLine m.input).1 = strip (takeLine input).1) :
    Matches t (takeLine input).2 line ((readInput s a).run m)
      ((readInput s' a').run (m.displaced input line)) := by
  refine readLine_matches (fun text => ?_) agrees
  cases type with
  | value v => exact Parallel.refuse _
  | operand type =>
    cases type with
    | constant v => exact Parallel.refuse _
    | label name => exact Parallel.refuse _
    | var spelled name => exact Parallel.refuse _
    | dataType d =>
      have stores (v : Value) : Parallel t (takeLine input).2 line (assign s (.value v))
          (assign s' (.value v)) := .assignValue target v
      cases d with
      | bool => exact stores _
      | int => exact stores _
      | string =>
        dsimp only
        split
        · exact Parallel.bind (Parallel.refuse _) fun _ => stores _
        · exact stores _
      | float =>
        dsimp only
        split
        · exact Parallel.refuse _
        · split
          · exact stores _
          · exact stores _

/-- The input that a command leaves. -/
def inputAfter (c : Opcode) (input : List Char) : List Char :=
  if c = .read then (takeLine input).2 else input

theorem command_matches {c : Opcode} {os os' : List Operand} (like : List.Forall₂ t.Operands os os')
    (count : os.length = c.arity)
    (agrees : c = .read → strip (takeLine m.input).1 = strip (takeLine input).1) :
    Matches t (inputAfter c input) line ((command c os).run m)
      ((command c os').run (m.displaced input line)) := by
  unfold inputAfter
  by_cases reads : c = .read
  · subst reads
    rw [if_pos rfl]
    rcases like with _ | ⟨first, _ | ⟨second, _ | _⟩⟩
    · contradiction
    · simp [Opcode.arity] at count
    · exact readInput_matches (.operand first) (.operand second) (agrees rfl)
    · simp [Opcode.arity] at count
  · rw [if_neg reads]
    exact Parallel.command like reads m

end TacBench.Machine
