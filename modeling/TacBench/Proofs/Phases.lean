import TacBench.Proofs.Access
import TacBench.Proofs.Control
import TacBench.Proofs.Values

/-! Every command works in two phases. First it prepares: it pays for what it reads, takes values
from the data stack and, to read input, a line of it. Then it makes the one change it is there for,
which cannot fail any more. A failed command has therefore only prepared; the one exception is
output that is made and then interrupted. -/
namespace TacBench

/-- Commands that find their operands on the data stack. -/
def Opcode.takes : Opcode → Bool
  | .jumpIfStack _ | .binaryStack _ | .unaryStack _ => true
  | _ => false

namespace Machine

variable {α β : Type} {computation : Exec α} {k : α → Exec β} {failed : Fault → Machine → Prop}
  {done : α → Machine → Prop} {c : Opcode} {operands rest : List Operand} {m m' x y : Machine}
  {s : Source} {v : Value} {paid taken : Nat} {line : Bool}

/-- What holds of the end of a computation, by how it ends. -/
def Ends (computation : Exec α) (m : Machine) (failed : Fault → Machine → Prop)
    (done : α → Machine → Prop) : Prop :=
  match computation.run m with
  | .ok a m' => done a m'
  | .error f m' => failed f m'

theorem Ends.of_ok {a : α} (ran : computation.run m = .ok a m') (holds : done a m') :
    Ends computation m failed done := by
  simpa only [Ends, ran] using holds

theorem Ends.of_error {f : Fault} (ran : computation.run m = .error f m') (holds : failed f m') :
    Ends computation m failed done := by
  simpa only [Ends, ran] using holds

theorem Ends.ok {a : α} (ends : Ends computation m failed done)
    (ran : computation.run m = .ok a m') :
    done a m' := by
  simpa only [Ends, ran] using ends

theorem Ends.error {f : Fault} (ends : Ends computation m failed done)
    (ran : computation.run m = .error f m') : failed f m' := by
  simpa only [Ends, ran] using ends

theorem Ends.bind {done : β → Machine → Prop}
    (first : Ends computation m failed fun a m' => Ends (k a) m' failed done) :
    Ends (computation >>= k) m failed done := by
  unfold Ends at first ⊢
  rw [EStateM.run_bind]
  cases ran : computation.run m with
  | ok a between => simpa only [ran] using first
  | error f between => simpa only [ran] using first

theorem Ends.imp {other : α → Machine → Prop} (ends : Ends computation m failed done)
    (weaker : ∀ a m', done a m' → other a m') : Ends computation m failed other := by
  unfold Ends at ends ⊢
  cases ran : computation.run m with
  | ok a m' => exact weaker a m' (by simpa only [ran] using ends)
  | error f m' => simpa only [ran] using ends

theorem Ends.discard {done : Machine → Prop}
    (first : Ends computation m failed fun _ m' => done m') :
    Ends (discard computation) m failed fun _ m' => done m' :=
  Ends.bind first

/-- The machine after preparation. -/
def prepared (m : Machine) (paid taken : Nat) (line : Bool) : Machine :=
  { m with
    operandPrice := m.operandPrice + paid
    stack := m.stack.drop taken
    input := if line then (Text.takeLine m.input).2 else m.input }

theorem prepared_frames (m : Machine) (paid taken : Nat) (line : Bool) :
    SameFrames m (m.prepared paid taken line) := ⟨rfl, rfl, rfl⟩

theorem prepared_charged (m : Machine) (paid taken : Nat) (line : Bool) (n : Nat) :
    (m.prepared paid taken line).charged n = m.prepared (paid + n) taken line := by
  simp only [prepared, charged, Nat.add_assoc]

/-! Preparing goes on from a prepared machine. What must hold of a failure is left open here. -/

section Prepared

variable {done : β → Machine → Prop}

theorem Ends.read {k : Value → Exec β}
    (fails : ∀ f, lookup m s = .error f → failed f (m.prepared (paid + readPrice s) taken line))
    (next : ∀ v, lookup m s = .ok v →
      Ends (k v) (m.prepared (paid + readPrice s) taken line) failed done) :
    Ends (Machine.read s >>= k) (m.prepared paid taken line) failed done := by
  apply Ends.bind
  unfold Ends
  rw [read_run, (prepared_frames m paid taken line).lookup, prepared_charged]
  cases found : lookup m s with
  | error f => exact fails f found
  | ok v => exact next v found

theorem Ends.ofValue {r : Except Value.Fault α} (fails : ∀ e, r = .error e → failed (.value e) x)
    (next : ∀ a, r = .ok a → Ends (k a) x failed done) :
    Ends (Machine.ofValue r >>= k) x failed done := by
  cases r with
  | error e => exact fails e rfl
  | ok a => exact next a rfl

theorem Ends.frame {kind : FrameKind} {k : Option Frame → Exec β}
    (fails : ∀ f, frameOf m kind = .error f → failed f (m.prepared paid taken line))
    (next : ∀ found, frameOf m kind = .ok found →
      Ends (k found) (m.prepared paid taken line) failed done) :
    Ends (Machine.frame kind >>= k) (m.prepared paid taken line) failed done := by
  have ran := frame_run kind (m.prepared paid taken line)
  rw [(prepared_frames m paid taken line).frameOf] at ran
  apply Ends.bind
  cases found : frameOf m kind with
  | error f =>
    rw [found] at ran
    exact .of_error ran (fails f found)
  | ok frame =>
    rw [found] at ran
    exact .of_ok ran (next frame found)

theorem Ends.popValue {k : Value → Exec β}
    (empty : failed (.language .emptyDataStack) (m.prepared paid taken line))
    (textless : ∀ v e, v ∈ m.stack → v.text = .error e →
      failed (.value e) (m.prepared paid taken line))
    (next : ∀ v, v ∈ m.stack →
      Ends (k v) (m.prepared (paid + stackPrice) (taken + 1) line) failed done) :
    Ends (Machine.popValue >>= k) (m.prepared paid taken line) failed done := by
  have ran := popValue_run (m.prepared paid taken line)
  apply Ends.bind
  cases held : (m.prepared paid taken line).stack with
  | nil =>
    rw [held] at ran
    exact .of_error ran empty
  | cons v rest =>
    have member : v ∈ m.stack := List.mem_of_mem_drop (held ▸ List.mem_cons_self)
    rw [held] at ran
    dsimp only at ran
    cases shown : v.text with
    | error f =>
      rw [shown] at ran
      exact .of_error ran (textless v f member shown)
    | ok t =>
      rw [shown] at ran
      have tail : rest = m.stack.drop (taken + 1) := by
        rw [← List.tail_drop]
        exact (congrArg List.tail held).symm
      have same : { m.prepared paid taken line with
          stack := rest
          operandPrice := (m.prepared paid taken line).operandPrice + stackPrice } =
          m.prepared (paid + stackPrice) (taken + 1) line := by
        simp only [prepared, tail, Nat.add_assoc]
      exact .of_ok ran (same ▸ next v member)

theorem Ends.pop {o : Operand} {done : Value → Machine → Prop}
    (empty : failed (.language .emptyDataStack) m)
    (textless : ∀ v e, v ∈ m.stack → v.text = .error e → failed (.value e) m)
    (assigned : ∀ v below, m.stack = v :: below →
      Ends (Machine.assign (.operand o) (.value v)) m failed
      fun _ m' => done v { m' with stack := below, operandPrice := m'.operandPrice + stackPrice }) :
    Ends (Machine.pop (.operand o)) m failed done := by
  have ran := pop_run (.operand o) m
  cases held : m.stack with
  | nil =>
    rw [held] at ran
    exact .of_error ran empty
  | cons v below =>
    rw [held] at ran
    dsimp only at ran
    cases shown : v.text with
    | error f =>
      rw [shown] at ran
      exact .of_error ran (textless v f (held ▸ List.mem_cons_self) shown)
    | ok t =>
      have storing := assigned v below held
      simp only [shown, isTarget, ↓reduceIte] at ran
      cases stored : (Machine.assign (.operand o) (.value v)).run m with
      | error f m' =>
        rw [stored] at ran
        exact .of_error ran (storing.error stored)
      | ok u m' =>
        rw [stored] at ran
        exact .of_ok ran (storing.ok stored)

end Prepared

/-- Which preparation belongs to a command. -/
structure Allowed (c : Opcode) (taken : Nat) (line : Bool) : Prop where
  few : taken ≤ 2
  takes : taken ≠ 0 → c.takes = true
  reads : line = true → c = .read

theorem Allowed.nothing (c : Opcode) : Allowed c 0 false :=
  ⟨Nat.zero_le _, fun some => absurd rfl some, nofun⟩

/-- What a failed command leaves. -/
inductive Fails (c : Opcode) (m : Machine) : Fault → Machine → Prop where
  | early (f : Fault) (paid taken : Nat) (line : Bool) (allowed : Allowed c taken line) :
      Fails c m f (m.prepared paid taken line)
  | interrupted (text : Text) (paid : Nat) (found : m.interruptOn = some text) :
      Fails c m .interrupted { m.prepared paid 0 false with written := (.out, text) :: m.written }

/-- Input that is recognised as a truth value and has none. -/
def Misread (c : Opcode) (operands : List Operand) (m : Machine) : Prop :=
  c = .read ∧ (∃ target, operands = [target, .dataType .bool]) ∧
    truthInput (Text.strip (Text.takeLine m.input).1) = .none

/-- Where a value comes from that a command stores or pushes. Only a constant of the code and the
data stack could supply the missing value. -/
inductive Supplied (operands : List Operand) (m : Machine) (v : Value) : Prop where
  | computed (some : v ≠ .none)
  | constant (written : .constant v ∈ operands)
  | stacked (member : v ∈ m.stack)

/-- What a command does to the frames. -/
inductive Reframes (c : Opcode) (operands : List Operand) (m m' : Machine) : Prop where
  | keeps (same : SameFrames m m')
  | assigns (f : FrameRef) (name : String) (v : Value) (d : Frame) (rest : List Operand)
      (named : operands = .var f name :: rest) (found : frameOf m f.kind = .ok (some d))
      (known : d.contains name = true ∨ v = .none)
      (supplied : Supplied operands m v ∨ Misread c operands m)
      (same : SameFrames (storeIn f.kind name v m) m')
  | declares (f : FrameRef) (name : String) (d : Frame) (opcode : c = .defVar)
      (named : operands = [.var f name]) (found : frameOf m f.kind = .ok (some d))
      (fresh : d.contains name = false) (same : SameFrames (storeIn f.kind name .none m) m')
  | creates (opcode : c = .createFrame) (same : SameFrames { m with temp := some [] } m')
  | pushes (top : Frame) (opcode : c = .pushFrame) (held : m.temp = some top)
      (same : SameFrames { m with temp := none, locals := top :: m.locals } m')
  | pops (top : Frame) (rest : List Frame) (opcode : c = .popFrame) (held : m.locals = top :: rest)
      (same : SameFrames { m with temp := some top, locals := rest } m')

/-- What a command does to the data stack. -/
inductive Restacks (c : Opcode) (operands : List Operand) (m m' : Machine) : Prop where
  | takes (n : Nat) (rest : m'.stack = m.stack.drop n)
  | pushes (v : Value) (n : Nat) (supplied : Supplied operands m v)
      (rest : m'.stack = v :: m.stack.drop n)

structure Alters (c : Opcode) (operands : List Operand) (m m' : Machine) : Prop where
  frames : Reframes c operands m m'
  stack : Restacks c operands m m'

/-- A command on its way, after preparation, will fail or alter the machine as told. -/
def Behaves (c : Opcode) (operands : List Operand) (m : Machine) (computation : Exec α)
    (x : Machine) :
    Prop :=
  Ends computation x (Fails c m) fun _ m' => Alters c operands m m'

theorem Fails.alters {f : Fault} (fails : Fails c m f m') : Alters c operands m m' := by
  cases fails with
  | early _ paid taken line allowed => exact ⟨.keeps ⟨rfl, rfl, rfl⟩, .takes taken rfl⟩
  | interrupted text paid found => exact ⟨.keeps ⟨rfl, rfl, rfl⟩, .takes 0 rfl⟩

theorem Reframes.congr (altered : Reframes c operands m x) (same : SameFrames x m') :
    Reframes c operands m m' := by
  cases altered with
  | keeps kept => exact .keeps (kept.trans same)
  | assigns f name v d rest named found known supplied kept =>
    exact .assigns f name v d rest named found known supplied (kept.trans same)
  | declares f name d opcode named found fresh kept =>
    exact .declares f name d opcode named found fresh (kept.trans same)
  | creates opcode kept => exact .creates opcode (kept.trans same)
  | pushes top opcode held kept => exact .pushes top opcode held (kept.trans same)
  | pops top rest opcode held kept => exact .pops top rest opcode held (kept.trans same)

theorem Alters.congr (altered : Alters c operands m x) (same : SameFrames x m')
    (stack : m'.stack = x.stack) : Alters c operands m m' := by
  refine ⟨altered.frames.congr same, ?_⟩
  cases altered.stack with
  | takes n rest => exact .takes n (stack.trans rest)
  | pushes v n supplied rest => exact .pushes v n supplied (stack.trans rest)

namespace Allowed

variable (allowed : Allowed c taken line)
include allowed

theorem throw (f : Fault) {done : α → Machine → Prop} :
    Ends (MonadExcept.throw f : Exec α) (m.prepared paid taken line) (Fails c m) done :=
  Fails.early f paid taken line allowed

theorem read {k : Value → Exec β} {done : β → Machine → Prop}
    (next : ∀ v, lookup m s = .ok v →
      Ends (k v) (m.prepared (paid + readPrice s) taken line) (Fails c m) done) :
    Ends (read s >>= k) (m.prepared paid taken line) (Fails c m) done :=
  Ends.read (fun f _ => .early f _ _ _ allowed) next

theorem ofValue {r : Except Value.Fault α} {done : β → Machine → Prop}
    (next : ∀ a, r = .ok a → Ends (k a) (m.prepared paid taken line) (Fails c m) done) :
    Ends (ofValue r >>= k) (m.prepared paid taken line) (Fails c m) done :=
  Ends.ofValue (fun e _ => .early (.value e) _ _ _ allowed) next

theorem frame {kind : FrameKind} {k : Option Frame → Exec β} {done : β → Machine → Prop}
    (next : ∀ found, frameOf m kind = .ok found →
      Ends (k found) (m.prepared paid taken line) (Fails c m) done) :
    Ends (frame kind >>= k) (m.prepared paid taken line) (Fails c m) done :=
  Ends.frame (fun f _ => .early f _ _ _ allowed) next

theorem jump (o : Operand) :
    Behaves c operands m (jump (.operand o)) (m.prepared paid taken line) := by
  have ran := target_run o (m.prepared paid taken line)
  apply Ends.bind
  cases found : (m.prepared paid taken line).labels.find? (Program.labelOf o) with
  | none =>
    rw [found] at ran
    exact .of_error ran (.early _ _ _ _ allowed)
  | some n =>
    rw [found] at ran
    exact .of_ok ran ⟨.keeps ⟨rfl, rfl, rfl⟩, .takes taken rfl⟩

theorem assign (o : Operand) (what : Source)
    (supplied : ∀ v, lookup m what = .ok v → Supplied (o :: rest) m v ∨ Misread c (o :: rest) m) :
    Behaves c (o :: rest) m (assign (.operand o) what) (m.prepared paid taken line) := by
  cases o with
  | constant v => exact allowed.throw _
  | label name => exact allowed.throw _
  | dataType t => exact allowed.throw _
  | var f name =>
    refine allowed.frame fun frame found => ?_
    cases frame with
    | none => exact allowed.throw _
    | some d =>
      dsimp only
      split
      · exact allowed.throw _
      · rename_i accepted
        refine allowed.read fun v looked => ?_
        have known : d.contains name = true ∨ v = .none := by
          cases what with
          | value w =>
            cases looked
            by_cases missing : v = .none
            · exact .inr missing
            · simpa [missing] using accepted
          | operand o => exact .inl (by simpa using accepted)
        refine ⟨.assigns f name v d rest rfl found known (supplied v looked) ?_, .takes taken ?_⟩
        · exact (prepared_frames m _ taken line).stored f.kind name v
        · exact storeIn_stack f.kind name v _

theorem store (o : Operand) (supplied : Supplied (o :: rest) m v ∨ Misread c (o :: rest) m) :
    Behaves c (o :: rest) m (Machine.assign (.operand o) (.value v))
    (m.prepared paid taken line) := by
  refine allowed.assign o (.value v) fun w looked => ?_
  cases looked
  exact supplied

theorem storeResult (o : Operand) (some : v ≠ .none) :
    Behaves c (o :: rest) m (Machine.assign (.operand o) (.value v)) (m.prepared paid taken line) :=
  allowed.store o (.inl (.computed some))

theorem push (s : Source) (supplied : ∀ v, lookup m s = .ok v → Supplied operands m v) :
    Behaves c operands m (push s) (m.prepared paid taken line) := by
  refine allowed.read fun v looked => allowed.ofValue fun t _ => ?_
  exact ⟨.keeps ⟨rfl, rfl, rfl⟩, .pushes v taken (supplied v looked) rfl⟩

theorem pushResult (some : v ≠ .none) :
    Behaves c operands m (Machine.push (.value v)) (m.prepared paid taken line) := by
  refine allowed.push (.value v) fun w looked => ?_
  cases looked
  exact .computed some

theorem popValue {k : Value → Exec β} {done : β → Machine → Prop}
    (next : ∀ v, v ∈ m.stack →
      Ends (k v) (m.prepared (paid + stackPrice) (taken + 1) line) (Fails c m) done) :
    Ends (popValue >>= k) (m.prepared paid taken line) (Fails c m) done :=
  Ends.popValue (.early _ _ _ _ allowed) (fun _ _ _ _ => .early _ _ _ _ allowed) next

end Allowed

theorem emit_behaves (channel : Channel) (text : Text) :
    Behaves c operands m (emit channel text) (m.prepared paid 0 false) := by
  apply Ends.bind
  change Ends _ { m.prepared paid 0 false with written := (channel, text) :: m.written } _ _
  apply Ends.bind
  change Ends (if channel = .out && m.interruptOn = some text then throw .interrupted
    else pure ()) _ _ _
  split
  · rename_i stops
    obtain ⟨rfl, found⟩ : channel = .out ∧ m.interruptOn = some text := by simpa using stops
    exact Fails.interrupted text paid found
  · exact ⟨.keeps ⟨rfl, rfl, rfl⟩, .takes 0 rfl⟩

theorem declare_behaves (o : Operand) :
    Behaves .defVar [o] m (declare (.operand o)) (m.prepared 0 0 false) := by
  have allowed := Allowed.nothing .defVar
  cases o with
  | constant v => exact allowed.throw _
  | label name => exact allowed.throw _
  | dataType t => exact allowed.throw _
  | var f name =>
    refine allowed.frame fun frame found => ?_
    cases frame with
    | none => exact allowed.throw _
    | some d =>
      dsimp only
      split
      · exact allowed.throw _
      · rename_i fresh
        refine ⟨.declares f name d rfl rfl found (by simpa using fresh) ?_, .takes 0 ?_⟩
        · exact (prepared_frames m 0 0 false).stored f.kind name .none
        · exact storeIn_stack f.kind name .none _

theorem pushFrame_behaves : Behaves .pushFrame operands m pushFrame m := by
  apply Ends.bind
  refine .of_ok (EStateM.run_get m) ?_
  cases held : m.temp with
  | none => exact Fails.early _ 0 0 false (.nothing _)
  | some top => exact ⟨.pushes top rfl held ⟨rfl, rfl, rfl⟩, .takes 0 rfl⟩

theorem popFrame_behaves : Behaves .popFrame operands m popFrame m := by
  apply Ends.bind
  refine .of_ok (EStateM.run_get m) ?_
  cases held : m.locals with
  | nil => exact Fails.early _ 0 0 false (.nothing _)
  | cons top rest => exact ⟨.pops top rest rfl held ⟨rfl, rfl, rfl⟩, .takes 0 rfl⟩

theorem call_behaves (o : Operand) : Behaves .call operands m (call (.operand o)) m := by
  have ran := target_run o m
  apply Ends.bind
  cases found : m.labels.find? (Program.labelOf o) with
  | none =>
    rw [found] at ran
    exact .of_error ran (Fails.early _ 0 0 false (.nothing _))
  | some n =>
    rw [found] at ran
    exact .of_ok ran ⟨.keeps ⟨rfl, rfl, rfl⟩, .takes 0 rfl⟩

theorem returnBack_behaves : Behaves .ret operands m returnBack m := by
  apply Ends.bind
  refine .of_ok (EStateM.run_get m) ?_
  cases m.calls with
  | nil => exact Fails.early _ 0 0 false (.nothing _)
  | cons position rest => exact ⟨.keeps ⟨rfl, rfl, rfl⟩, .takes 0 rfl⟩

theorem pop_behaves (o : Operand) : Behaves .pop (o :: rest) m (pop (.operand o)) m := by
  have early (f : Fault) : Fails .pop m f m := Fails.early f 0 0 false (.nothing _)
  refine Ends.pop (early _) (fun _ _ _ _ => early _) fun v below held => ?_
  have assigned : Behaves .pop (o :: rest) m (assign (.operand o) (.value v))
      (m.prepared 0 0 false) :=
    (Allowed.nothing .pop).store o (.inl (.stacked (held ▸ List.mem_cons_self)))
  change Ends (assign (.operand o) (.value v)) m _ _ at assigned
  refine assigned.imp fun _ m' altered => ⟨altered.frames.congr ⟨rfl, rfl, rfl⟩, .takes 1 ?_⟩
  rw [held]
  rfl

theorem lookup_variable_ne_none {f : FrameRef} {name : String}
    (looked : lookup m (.operand (.var f name)) = .ok v) : v ≠ .none := by
  rintro rfl
  rw [lookup_variable] at looked
  cases found : frameOf m f.kind with
  | error e =>
    rw [found] at looked
    cases looked
  | ok frame =>
    rw [found] at looked
    change valueIn f name frame = .ok .none at looked
    unfold valueIn at looked
    split at looked
    · cases looked
    · split at looked
      · cases looked
      · cases looked
      · rename_i other _
        exact other (Except.ok.inj looked)

/-- An operand that can be read has a value, unless it is a constant without one. -/
theorem lookup_supplied {o : Operand} (member : o ∈ operands)
    (looked : lookup m (.operand o) = .ok v) :
    Supplied operands m v := by
  cases o with
  | constant w =>
    cases looked
    exact .constant member
  | label name => cases looked
  | dataType t => cases looked
  | var f name => exact .computed (lookup_variable_ne_none looked)

theorem jumpIf_behaves (allowed : Allowed c taken line) (o : Operand) (l r : Source)
    (equal : Bool) :
    Behaves c operands m (jumpIf (.operand o) l r equal) (m.prepared paid taken line) := by
  refine allowed.read fun a _ => allowed.read fun b _ => ?_
  split
  · exact allowed.jump o
  · exact ⟨.keeps ⟨rfl, rfl, rfl⟩, .takes taken rfl⟩

theorem jumpIfStack_behaves (o : Operand) (equal : Bool) :
    Behaves (.jumpIfStack equal) operands m (jumpIfStack (.operand o) equal)
    (m.prepared 0 0 false) := by
  have allowed (n : Nat) (few : n ≤ 2) : Allowed (.jumpIfStack equal) n false :=
    ⟨few, fun _ => rfl, nofun⟩
  refine (allowed 0 (by decide)).popValue fun l _ => ?_
  refine (allowed 1 (by decide)).popValue fun r _ => ?_
  exact jumpIf_behaves (allowed 2 (by decide)) o _ _ equal

theorem binary_behaves {f : Value → Value → Except Value.Fault Value}
    (total : ∀ l r, f l r ≠ .ok .none) (o : Operand) (l r : Source) :
    Behaves c (o :: rest) m (binary f (.operand o) l r) (m.prepared 0 0 false) := by
  have allowed := Allowed.nothing c
  refine allowed.read fun a _ => allowed.read fun b _ => allowed.ofValue fun v computed => ?_
  exact allowed.storeResult o fun missing => total a b (missing ▸ computed)

theorem binaryStack_behaves {f : Value → Value → Except Value.Fault Value}
    (total : ∀ l r, f l r ≠ .ok .none) (takes : c.takes = true) :
    Behaves c operands m (binaryStack f) (m.prepared 0 0 false) := by
  have allowed (n : Nat) (few : n ≤ 2) : Allowed c n false := ⟨few, fun _ => takes, nofun⟩
  refine (allowed 0 (by decide)).popValue fun r _ => ?_
  refine (allowed 1 (by decide)).popValue fun l _ => ?_
  refine (allowed 2 (by decide)).ofValue fun v computed => ?_
  exact (allowed 2 (by decide)).pushResult fun missing => total l r (missing ▸ computed)

theorem unary_behaves {f : Value → Except Value.Fault Value} (total : ∀ x, f x ≠ .ok .none)
    (o : Operand) (x : Source) :
    Behaves c (o :: rest) m (unary f (.operand o) x) (m.prepared 0 0 false) := by
  have allowed := Allowed.nothing c
  refine allowed.read fun a _ => allowed.ofValue fun v computed => ?_
  exact allowed.storeResult o fun missing => total a (missing ▸ computed)

theorem unaryStack_behaves {f : Value → Except Value.Fault Value}
    (total : ∀ x, f x ≠ .ok .none) (takes : c.takes = true) :
    Behaves c operands m (unaryStack f) (m.prepared 0 0 false) := by
  have allowed (n : Nat) (few : n ≤ 2) : Allowed c n false := ⟨few, fun _ => takes, nofun⟩
  refine (allowed 0 (by decide)).popValue fun x _ => ?_
  refine (allowed 1 (by decide)).ofValue fun v computed => ?_
  exact (allowed 1 (by decide)).pushResult fun missing => total x (missing ▸ computed)

theorem typeName_behaves (o : Operand) (x : Source) :
    Behaves c (o :: rest) m (typeName (.operand o) x) (m.prepared 0 0 false) := by
  have allowed := Allowed.nothing c
  refine allowed.read fun _ _ => allowed.read fun v _ => ?_
  exact allowed.storeResult o nofun

theorem getChar_behaves (o : Operand) (text index : Source) :
    Behaves c (o :: rest) m (getChar (.operand o) text index) (m.prepared 0 0 false) := by
  have allowed := Allowed.nothing c
  refine allowed.read fun s _ => allowed.read fun i _ => ?_
  split
  · exact allowed.storeResult o nofun
  · exact allowed.read fun _ _ => allowed.throw _
  · exact allowed.read fun _ _ => allowed.throw _
  · exact allowed.throw _

theorem setChar_behaves (target index source : Source) :
    Behaves c operands m (setChar target index source) (m.prepared 0 0 false) := by
  have allowed := Allowed.nothing c
  refine allowed.read fun _ _ => allowed.read fun _ _ => allowed.ofValue fun _ _ => ?_
  exact allowed.read fun _ _ => allowed.throw _

/-- The line is consumed before anything can fail. -/
theorem readInput_behaves (o type : Operand) :
    Behaves .read [o, type] m (readInput (.operand o) (.operand type)) m := by
  have allowed : Allowed .read 0 true := ⟨Nat.zero_le _, fun some => absurd rfl some, fun _ => rfl⟩
  apply Ends.bind
  change Ends _ (m.prepared 0 0 true) _ _
  cases type with
  | constant w => exact allowed.throw _
  | var f name => exact allowed.throw _
  | label name => exact allowed.throw _
  | dataType t =>
    cases t with
    | string =>
      dsimp only
      split
      · exact allowed.throw _
      · exact allowed.storeResult o nofun
    | int => exact allowed.storeResult o nofun
    | float =>
      dsimp only
      split
      · exact allowed.throw _
      · split <;> exact allowed.storeResult o nofun
    | bool =>
      refine allowed.store o ?_
      by_cases missing : truthInput (Text.strip (Text.takeLine m.input).1) = .none
      · exact .inr ⟨rfl, ⟨o, rfl⟩, missing⟩
      · exact .inl (.computed missing)

theorem write_behaves (s : Source) : Behaves c operands m (write s) (m.prepared 0 0 false) := by
  have allowed := Allowed.nothing c
  exact allowed.read fun _ _ => allowed.ofValue fun text _ => emit_behaves .out text

/-- Every command prepares first and changes the machine then. -/
theorem command_behaves (c : Opcode) (operands : List Operand) (m : Machine) :
    Behaves c operands m (command c operands) m := by
  have allowed := Allowed.nothing c
  change Behaves c operands m _ (m.prepared 0 0 false)
  -- the operands are given as sources, which an equation of lists turns back into operands
  change Behaves c operands m (commandWithin m.longest c operands) (m.prepared 0 0 false)
  unfold commandWithin
  split <;> rename_i named
  · match operands, named with
    | [a, b], rfl =>
      exact allowed.assign a (.operand b) fun v looked => .inl (lookup_supplied (by simp) looked)
  · exact ⟨.creates rfl ⟨rfl, rfl, rfl⟩, .takes 0 rfl⟩
  · exact pushFrame_behaves
  · exact popFrame_behaves
  · match operands, named with
    | [a], rfl => exact declare_behaves a
  · match operands, named with
    | [a], rfl => exact allowed.jump a
  · match operands, named with
    | [a], rfl => exact call_behaves a
  · exact returnBack_behaves
  · exact ⟨.keeps ⟨rfl, rfl, rfl⟩, .takes 0 rfl⟩
  · match operands, named with
    | [a, b, c], rfl => exact jumpIf_behaves allowed a _ _ _
  · match operands, named with
    | [a], rfl => exact jumpIfStack_behaves a _
  · exact write_behaves _
  · match operands, named with
    | [a, b], rfl => exact readInput_behaves a b
  · match operands, named with
    | [a], rfl => exact allowed.push (.operand a) fun v looked => lookup_supplied (by simp) looked
  · match operands, named with
    | [a], rfl => exact (pop_behaves a).discard
  · exact allowed.popValue fun _ _ => ⟨.keeps ⟨rfl, rfl, rfl⟩, .takes 1 rfl⟩
  · exact ⟨.keeps ⟨rfl, rfl, rfl⟩, .takes m.stack.length List.drop_length.symm⟩
  · match operands, named with
    | [a, b, c], rfl => exact binary_behaves (Binary.apply_ne_none _ _) a _ _
  · exact binaryStack_behaves (Binary.apply_ne_none _ _) rfl
  · match operands, named with
    | [a, b], rfl => exact unary_behaves (Unary.apply_ne_none _ _) a _
  · exact unaryStack_behaves (Unary.apply_ne_none _ _) rfl
  · match operands, named with
    | [a, b], rfl => exact typeName_behaves a _
  · match operands, named with
    | [a, b, c], rfl => exact binary_behaves (fun _ _ => Value.concat_ne_none) a _ _
  · match operands, named with
    | [a, b], rfl => exact unary_behaves (fun _ => Value.length_ne_none) a _
  · match operands, named with
    | [a, b, c], rfl => exact getChar_behaves a _ _
  · exact setChar_behaves _ _ _
  · exact Ends.bind (allowed.ofValue fun s _ => emit_behaves .err _)
  · exact allowed.read fun _ _ => allowed.ofValue fun t _ => emit_behaves .err _
  · exact Ends.bind (emit_behaves .err _)
  · exact allowed.throw _

theorem execute_fails {i : Instruction} {f : Fault} (ran : (execute i).run m = .error f m') :
    Fails i.opcode m f m' :=
  (command_behaves i.opcode i.operands m).error (execute_error.mp ran)

theorem execute_alters {i : Instruction} (ran : (execute i).run m = .ok () m') :
    Alters i.opcode i.operands m m' := by
  obtain ⟨between, commanded, rfl⟩ := execute_ok.mp ran
  have altered := (command_behaves i.opcode i.operands m).ok commanded
  exact altered.congr ⟨rfl, rfl, rfl⟩ rfl

theorem advance_frames (before after : Machine) : SameFrames after (advance before after) := by
  unfold advance
  split <;> exact ⟨rfl, rfl, rfl⟩

theorem Proceeds.alters {p : Program} (proceeds : Proceeds p x y) :
    y = x ∨ ∃ i, p.fetch? x = some i ∧ Alters i.opcode i.operands x y := by
  cases proceeds with
  | rests => exact .inl rfl
  | stops i f _ fetched ran => exact .inr ⟨i, fetched, (execute_fails ran).alters⟩
  | advances i between fetched ran =>
    exact .inr ⟨i, fetched, (execute_alters ran).congr (advance_frames x _) (advance_stack x _)⟩

/-- An instruction that fails leaves everything but the price, the data stack and the input as it
was, and these only as far as it had prepared, unless the output itself has interrupted it. -/
theorem failure_leaves_machine (i : Instruction) {m m' : Machine} {f : Fault}
    (ran : (execute i).run m = .error f m') (quiet : m.interruptOn = none ∨ f ≠ .interrupted) :
    m' = { m with operandPrice := m'.operandPrice, stack := m'.stack, input := m'.input } ∧
    m.operandPrice ≤ m'.operandPrice ∧
    (∃ n ≤ 2, m'.stack = m.stack.drop n) ∧
    (i.opcode.takes = false → m'.stack = m.stack) ∧
    (m'.input = m.input ∨ m'.input = (Text.takeLine m.input).2) ∧
    (i.opcode ≠ .read → m'.input = m.input) := by
  cases execute_fails ran with
  | interrupted text paid found =>
    rcases quiet with silent | other
    · rw [silent] at found
      cases found
    · exact absurd rfl other
  | early _ paid taken line allowed =>
    refine ⟨rfl, Nat.le_add_right _ _, ⟨taken, allowed.few, rfl⟩, fun keeps => ?_, ?_,
      fun other => ?_⟩
    · cases taken with
      | zero => rfl
      | succ n =>
        rw [allowed.takes nofun] at keeps
        cases keeps
    · cases line with
      | false => exact .inl rfl
      | true => exact .inr rfl
    · cases line with
      | false => rfl
      | true => exact absurd (allowed.reads rfl) other

/-- A machine on whose data stack a division by zero is prepared. -/
def zeroOnTop : Machine where
  globals := [("x", .int 7)]
  stack := [.bool false, .bool true, .int 7]

theorem zeroOnTop_division :
    let division : Instruction := ⟨.binaryStack .div, [], 3, "divs"⟩
    let after : Machine := { zeroOnTop with operandPrice := 4, stack := [.int 7] }
    (Instruction.parse "divs" 3).toOption = some division ∧
    (execute division).run zeroOnTop = .error (.value .divisionByZero) after ∧
    (∃ n ≤ 2, after.stack = zeroOnTop.stack.drop n) ∧ after.input = zeroOnTop.input := by
  intro division after
  have ran : (execute division).run zeroOnTop = .error (.value .divisionByZero) after := by rfl
  obtain ⟨-, -, few, -, -, input⟩ := failure_leaves_machine division ran (.inl rfl)
  exact ⟨by decide +kernel, ran, few, input nofun⟩

end Machine
end TacBench
