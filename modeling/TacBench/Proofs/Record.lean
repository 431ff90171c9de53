import TacBench.Proofs.Stepping

/-! A record of what happens in a session while calls are answered: when a program is launched, when
an instruction begins and when the session is stopped. The recorded calls are the calls themselves;
which instructions stop the session is left open, so that a stop can come from any write. -/
namespace TacBench.Debug

inductive Event where
  /-- A program is to be debugged or run. -/
  | launch
  /-- An instruction of the program begins on the machine. -/
  | begins (p : Program) (m : Machine)
  | stop
  deriving DecidableEq, Repr

/-- A result with the events that led to it. -/
structure Recorded (α : Type) where
  result : α
  events : List Event

namespace Recorded

instance : Monad Recorded where
  pure a := ⟨a, []⟩
  bind x next := ⟨(next x.result).result, x.events ++ (next x.result).events⟩

def map {α β : Type} (f : α → β) (x : Recorded α) : Recorded β := ⟨f x.result, x.events⟩

/-- Carries out the next instruction of a program. -/
def carryOut (p : Program) (m : Machine) : Recorded Machine.Step :=
  ⟨Machine.step p m, if (p.fetch? m).isSome then [.begins p m] else []⟩

def launch : Recorded Unit := ⟨(), [.launch]⟩

def stop (s : Session) : Recorded Session := ⟨s.stop, [.stop]⟩

variable {α β : Type}

@[simp]
theorem result_pure (a : α) : (pure a : Recorded α).result = a := rfl

@[simp]
theorem events_pure (a : α) : (pure a : Recorded α).events = [] := rfl

theorem bind_eq (x : Recorded α) (next : α → Recorded β) :
    x >>= next = ⟨(next x.result).result, x.events ++ (next x.result).events⟩ := rfl

theorem result_bind (x : Recorded α) (next : α → Recorded β) :
    (x >>= next).result = (next x.result).result := rfl

theorem events_bind (x : Recorded α) (next : α → Recorded β) :
    (x >>= next).events = x.events ++ (next x.result).events := rfl

theorem result_carryOut (p : Program) (m : Machine) :
    (carryOut p m).result = Machine.step p m := rfl

theorem carryOut_ended {p : Program} {m : Machine} (ended : Machine.step p m = .ended) :
    carryOut p m = ⟨.ended, []⟩ := by
  rw [carryOut, ended, Machine.step_ended.mp ended]
  rfl

theorem carryOut_begins {p : Program} {m : Machine} {r : Machine.Step}
    (stepped : Machine.step p m = r) (goes : r ≠ .ended) : carryOut p m = ⟨r, [.begins p m]⟩ := by
  rw [carryOut, stepped]
  cases fetched : p.fetch? m with
  | none => exact absurd (stepped.symm.trans (Machine.step_ended.mpr fetched)) goes
  | some i => rfl

end Recorded

/-- Whether the instruction that led from one machine to another has stopped the session by a
write. -/
abbrev StopRule := Session → Machine → Machine → Bool

/-- What can be asked of a session. -/
inductive Call where
  | debug (fuel : Nat) (code : String) (breakpoints : List Int)
  | run (fuel : Nat) (code : String)
  | ask (r : Request)
  | stop
  deriving DecidableEq, Repr

namespace Session

open Recorded (carryOut launch)

def answer (s : Session) : Call → Option Reply × Session
  | .debug fuel code breakpoints => (s.debug fuel code breakpoints).map some id
  | .run fuel code => (s.run fuel code).map some id
  | .ask r => s.perform r
  | .stop => (none, s.stop)

def answerAll (s : Session) : List Call → List (Option Reply) × Session
  | [] => ([], s)
  | c :: rest =>
    let answered := s.answer c
    let later := answered.2.answerAll rest
    (answered.1 :: later.1, later.2)

/-- Goes on with the walk of an open session. -/
def onWalk (s : Session) (go : Walk → Recorded (Reply × Session)) : Recorded (Reply × Session) :=
  if s.active ≠ some true then return (.error .inactive, s)
  else match s.walk with
    | none => return (.error .noWalk, s)
    | some w => go w

/-- The reply to a step of one line, by how far the walk got when it was resumed. -/
def lineReply : Resumed × Walk × Session → Reply × Session
  | (.over, w, s) => (.ok none, { s.keep w with active := none })
  | (.failed f, w, s) => (.error (.program f), s.keep w)
  | (.paused, w, s) => (.ok (some w.machine), s.keep w)

section Recorded

variable (rule : StopRule)

def resumeBy (w : Walk) (s : Session) : Recorded (Resumed × Walk × Session) :=
  match w.stage with
  | .over => return (.over, w, s)
  | .fresh =>
    let (r, w) := Walk.settle w (s.attach w.machine)
    return (r, w, s)
  | .paused => do
    let before := s.attach w.machine
    match ← carryOut w.program before with
    | .ended => return (.over, { w with stage := .over }, s)
    | .interrupted m => return (.over, { w with machine := m, stage := .over }, s.detach m)
    | .failed f m => return (.failed f, { w with machine := m, stage := .over }, s.detach m)
    | .next m =>
      if rule s before m then
        let s ← Recorded.stop (s.detach m)
        let (r, w) := Walk.settle (if w.latest then { w with enabled := false } else w) m
        return (r, w, s)
      else
        let (r, w) := Walk.settle w m
        return (r, w, s.detach m)

def walkBy : Nat → Walk → Session → Recorded (Reply × Session)
  | 0, w, s => return (.error .outOfFuel, s.keep w)
  | fuel + 1, w, s => do
    match ← resumeBy rule w s with
    | (.over, w, s) => return (.ok none, { s.keep w with active := some false })
    | (.failed f, w, s) => return (.error (.program f), s.keep w)
    | (.paused, w, s) =>
      if s.active ≠ some true then return (.ok none, s.keep w)
      else match s.program.bind (·.lineAt? w.machine.pc) with
        | none => return (.error .position, s.keep w)
        | some line =>
          if line ∈ s.breakpoints then return (.ok (some w.machine), s.keep w)
          else walkBy fuel w s

def nextBreakpointBy (fuel : Nat) (s : Session) : Recorded (Reply × Session) :=
  s.onWalk fun w => walkBy rule fuel w s

def nextLineBy (s : Session) : Recorded (Reply × Session) :=
  s.onWalk fun w => (resumeBy rule w s).map lineReply

def debugBy (fuel : Nat) (code : String) (breakpoints : List Int) (s : Session) :
    Recorded (Reply × Session) := do
  launch
  match Program.load code with
  | .error f => return (.error (.load f), s)
  | .ok p => nextBreakpointBy rule fuel (s.opened p breakpoints)

def runLoopBy (p : Program) : Nat → Machine → Session → Recorded (Except Fault Machine × Session)
  | 0, m, s => return (.error .outOfFuel, s.detach m)
  | fuel + 1, m, s => do
    match ← carryOut p m with
    | .ended => return (.ok m, s.detach m)
    | .interrupted m' => return (.ok m', s.detach m')
    | .failed f m' => return (.error (.program f), s.detach m')
    | .next m' =>
      if rule s m m' then
        let s ← Recorded.stop (s.detach m')
        return (.ok m', s)
      else runLoopBy p fuel m' s

def runBy (fuel : Nat) (code : String) (s : Session) : Recorded (Reply × Session) := do
  launch
  match Program.load code with
  | .error f => return (.error (.load f), s)
  | .ok p =>
    let s := s.withProgram p
    (runLoopBy rule p fuel (s.attach (p.start "" none)) s).map (Prod.map (·.map some) id)

def performBy (s : Session) : Request → Recorded (Option Reply × Session)
  | .line => (nextLineBy rule s).map (Prod.map some id)
  | .breakpoint fuel => (nextBreakpointBy rule fuel s).map (Prod.map some id)
  | .edit e => return (none, s.edit e)

def answerBy (s : Session) : Call → Recorded (Option Reply × Session)
  | .debug fuel code breakpoints => (debugBy rule fuel code breakpoints s).map (Prod.map some id)
  | .run fuel code => (runBy rule fuel code s).map (Prod.map some id)
  | .ask r => performBy rule s r
  | .stop => return (none, ← Recorded.stop s)

def answerAllBy (s : Session) : List Call → Recorded (List (Option Reply) × Session)
  | [] => return ([], s)
  | c :: rest => do
    let (reply, s) ← answerBy rule s c
    let (replies, s) ← s.answerAllBy rest
    return (reply :: replies, s)

end Recorded

/-- What resuming a walk comes to, and what begins and stops meanwhile. -/
inductive Resumption (rule : StopRule) (w : Walk) (s : Session) :
    Recorded (Resumed × Walk × Session) → Prop
  | past (stage : w.stage = .over) : Resumption rule w s ⟨(.over, w, s), []⟩
  | fresh (stage : w.stage = .fresh) :
      Resumption rule w s ⟨((Walk.settle w (s.attach w.machine)).1,
        (Walk.settle w (s.attach w.machine)).2, s), []⟩
  | ended (stage : w.stage = .paused)
      (stepped : Machine.step w.program (s.attach w.machine) = .ended) :
      Resumption rule w s ⟨(.over, { w with stage := .over }, s), []⟩
  | interrupted {m : Machine} (stage : w.stage = .paused)
      (stepped : Machine.step w.program (s.attach w.machine) = .interrupted m) :
      Resumption rule w s ⟨(.over, { w with machine := m, stage := .over }, s.detach m),
        [.begins w.program (s.attach w.machine)]⟩
  | failed {f : Machine.Failure} {m : Machine} (stage : w.stage = .paused)
      (stepped : Machine.step w.program (s.attach w.machine) = .failed f m) :
      Resumption rule w s ⟨(.failed f, { w with machine := m, stage := .over }, s.detach m),
        [.begins w.program (s.attach w.machine)]⟩
  | next {m : Machine} (stage : w.stage = .paused)
      (stepped : Machine.step w.program (s.attach w.machine) = .next m) :
      Resumption rule w s ⟨((Walk.settle w m).1, (Walk.settle w m).2, s.detach m),
        [.begins w.program (s.attach w.machine)]⟩
  | stopped {m : Machine} {w' : Walk} (stage : w.stage = .paused)
      (stepped : Machine.step w.program (s.attach w.machine) = .next m)
      (disabled : w' = if w.latest then { w with enabled := false } else w) :
      Resumption rule w s ⟨((Walk.settle w' m).1, (Walk.settle w' m).2, (s.detach m).stop),
        [.begins w.program (s.attach w.machine), .stop]⟩

theorem resumeBy_resumption (rule : StopRule) (w : Walk) (s : Session) :
    Resumption rule w s (resumeBy rule w s) := by
  unfold resumeBy
  split
  · rename_i stage
    exact .past stage
  · rename_i stage
    exact .fresh stage
  · rename_i stage
    dsimp only
    cases stepped : Machine.step w.program (s.attach w.machine) with
    | ended =>
      rw [Recorded.carryOut_ended stepped]
      exact .ended stage stepped
    | interrupted m =>
      rw [Recorded.carryOut_begins stepped nofun]
      exact .interrupted stage stepped
    | failed f m =>
      rw [Recorded.carryOut_begins stepped nofun]
      exact .failed stage stepped
    | next m =>
      rw [Recorded.carryOut_begins stepped nofun, Recorded.bind_eq]
      dsimp only
      split
      · exact .stopped stage stepped rfl
      · exact .next stage stepped

/-- What a walk to a breakpoint comes to, by how far it got when it was resumed. -/
inductive WalksOn (rule : StopRule) (fuel : Nat) :
    Recorded (Resumed × Walk × Session) → Recorded (Reply × Session) → Prop
  | past {w : Walk} {s : Session} {events : List Event} :
      WalksOn rule fuel ⟨(.over, w, s), events⟩
        ⟨(.ok none, { s.keep w with active := some false }), events⟩
  | failed {w : Walk} {s : Session} {f : Machine.Failure} {events : List Event} :
      WalksOn rule fuel ⟨(.failed f, w, s), events⟩ ⟨(.error (.program f), s.keep w), events⟩
  | closed {w : Walk} {s : Session} {events : List Event} (inactive : s.active ≠ some true) :
      WalksOn rule fuel ⟨(.paused, w, s), events⟩ ⟨(.ok none, s.keep w), events⟩
  | unplaced {w : Walk} {s : Session} {events : List Event} (active : s.active = some true)
      (unplaced : s.program.bind (·.lineAt? w.machine.pc) = none) :
      WalksOn rule fuel ⟨(.paused, w, s), events⟩ ⟨(.error .position, s.keep w), events⟩
  | shown {w : Walk} {s : Session} {events : List Event} (active : s.active = some true) :
      WalksOn rule fuel ⟨(.paused, w, s), events⟩ ⟨(.ok (some w.machine), s.keep w), events⟩
  | further {w : Walk} {s : Session} {events : List Event} (active : s.active = some true) :
      WalksOn rule fuel ⟨(.paused, w, s), events⟩
        ⟨(walkBy rule fuel w s).result, events ++ (walkBy rule fuel w s).events⟩

theorem walkBy_walksOn (rule : StopRule) (fuel : Nat) (w : Walk) (s : Session) :
    WalksOn rule fuel (resumeBy rule w s) (walkBy rule (fuel + 1) w s) := by
  unfold walkBy
  generalize resumeBy rule w s = resumed
  obtain ⟨⟨_ | _ | f, w, s⟩, events⟩ := resumed
  · rw [Recorded.bind_eq]
    dsimp only
    split
    · rename_i closed
      rw [Recorded.events_pure, List.append_nil]
      exact .closed closed
    · rename_i active
      have active := Decidable.not_not.mp active
      cases placed : s.program.bind (·.lineAt? w.machine.pc) with
      | none =>
        dsimp only
        rw [Recorded.events_pure, List.append_nil]
        exact .unplaced active placed
      | some line =>
        dsimp only
        split
        · rw [Recorded.events_pure, List.append_nil]
          exact .shown active
        · exact .further active
  · rw [Recorded.bind_eq, Recorded.events_pure, List.append_nil]
    exact .past
  · rw [Recorded.bind_eq, Recorded.events_pure, List.append_nil]
    exact .failed

section Loading

variable {code : String} {p : Program} {f : Code.LoadFault}

theorem debugBy_ok (loaded : Program.load code = .ok p) (rule : StopRule) (fuel : Nat)
    (breakpoints : List Int) (s : Session) :
    debugBy rule fuel code breakpoints s =
      launch >>= fun _ => nextBreakpointBy rule fuel (s.opened p breakpoints) := by
  rw [debugBy, loaded]

theorem debugBy_error (refused : Program.load code = .error f) (rule : StopRule) (fuel : Nat)
    (breakpoints : List Int) (s : Session) :
    debugBy rule fuel code breakpoints s = ⟨(.error (.load f), s), [.launch]⟩ := by
  rw [debugBy, refused]
  rfl

theorem runBy_ok (loaded : Program.load code = .ok p) (rule : StopRule) (fuel : Nat) (s : Session) :
    runBy rule fuel code s = launch >>= fun _ =>
      (runLoopBy rule p fuel (s.attach (p.start "" none)) (s.withProgram p)).map
        (Prod.map (·.map some) id) := by
  rw [runBy, loaded]
  rfl

theorem runBy_error (refused : Program.load code = .error f) (rule : StopRule) (fuel : Nat)
    (s : Session) : runBy rule fuel code s = ⟨(.error (.load f), s), [.launch]⟩ := by
  rw [runBy, refused]
  rfl

end Loading

/-! Without the record, and with the rule of the session, the recorded calls are the calls. -/

theorem resumeBy_result (w : Walk) (s : Session) : (resumeBy stopsAt w s).result = resume w s := by
  unfold resumeBy resume
  rcases w.stage with _ | _ | _
  · rfl
  · simp only [Recorded.result_bind, Recorded.result_carryOut]
    cases Machine.step w.program (s.attach w.machine) with
    | ended => rfl
    | interrupted m => rfl
    | failed f m => rfl
    | next m =>
      cases stopped : s.stopsAt (s.attach w.machine) m with
      | false =>
        simp only [stopped, Bool.false_eq_true, ↓reduceIte, Bool.false_and]
        rfl
      | true =>
        simp only [stopped, ↓reduceIte, Bool.true_and]
        rfl
  · rfl

theorem walkBy_result (fuel : Nat) (w : Walk) (s : Session) :
    (walkBy stopsAt fuel w s).result = walkToBreakpoint fuel w s := by
  induction fuel generalizing w s with
  | zero => rfl
  | succ fuel ih =>
    unfold walkBy walkToBreakpoint
    rw [Recorded.result_bind, resumeBy_result]
    generalize resume w s = resumed
    obtain ⟨_ | _ | f, w, s⟩ := resumed
    · dsimp only
      split
      · rfl
      · cases s.program.bind (·.lineAt? w.machine.pc) with
        | none => rfl
        | some line =>
          dsimp only
          split
          · rfl
          · exact ih w s
    · rfl
    · rfl

theorem nextBreakpointBy_result (fuel : Nat) (s : Session) :
    (nextBreakpointBy stopsAt fuel s).result = s.nextBreakpoint fuel := by
  unfold nextBreakpointBy onWalk nextBreakpoint
  split
  · rfl
  · cases s.walk with
    | none => rfl
    | some w => exact walkBy_result fuel w s

theorem nextLineBy_result (s : Session) : (nextLineBy stopsAt s).result = s.nextLine := by
  unfold nextLineBy onWalk nextLine
  split
  · rfl
  · cases s.walk with
    | none => rfl
    | some w =>
      simp only [Recorded.map, resumeBy_result]
      generalize resume w s = resumed
      obtain ⟨_ | _ | f, w, s⟩ := resumed <;> rfl

theorem debugBy_result (fuel : Nat) (code : String) (breakpoints : List Int) (s : Session) :
    (debugBy stopsAt fuel code breakpoints s).result = s.debug fuel code breakpoints := by
  cases loaded : Program.load code with
  | error f => simp only [debugBy_error loaded, debug, loaded]
  | ok p =>
    simp only [debugBy_ok loaded, debug, loaded]
    exact nextBreakpointBy_result fuel _

theorem runLoopBy_result (p : Program) (fuel : Nat) (m : Machine) (s : Session) :
    (runLoopBy stopsAt p fuel m s).result = runLoop p fuel m s := by
  induction fuel generalizing m s with
  | zero => rfl
  | succ fuel ih =>
    unfold runLoopBy runLoop
    rw [Recorded.result_bind, Recorded.result_carryOut]
    cases Machine.step p m with
    | ended => rfl
    | interrupted m' => rfl
    | failed f m' => rfl
    | next m' =>
      dsimp only
      split
      · rfl
      · exact ih m' s

theorem runBy_result (fuel : Nat) (code : String) (s : Session) :
    (runBy stopsAt fuel code s).result = s.run fuel code := by
  cases loaded : Program.load code with
  | error f => simp only [runBy_error loaded, run, loaded]
  | ok p =>
    simp only [runBy_ok loaded, run, loaded, Recorded.result_bind, Recorded.map, runLoopBy_result]
    rfl

theorem performBy_result (s : Session) (r : Request) :
    (performBy stopsAt s r).result = s.perform r := by
  cases r with
  | line => exact congrArg (Prod.map some id) (nextLineBy_result s)
  | breakpoint fuel => exact congrArg (Prod.map some id) (nextBreakpointBy_result fuel s)
  | edit e => rfl

theorem answerBy_result (s : Session) (c : Call) : (answerBy stopsAt s c).result = s.answer c := by
  cases c with
  | debug fuel code breakpoints =>
    exact congrArg (Prod.map some id) (debugBy_result fuel code breakpoints s)
  | run fuel code => exact congrArg (Prod.map some id) (runBy_result fuel code s)
  | ask r => exact performBy_result s r
  | stop => rfl

theorem answerAllBy_result (s : Session) (calls : List Call) :
    (answerAllBy stopsAt s calls).result = s.answerAll calls := by
  induction calls generalizing s with
  | nil => rfl
  | cons c rest ih =>
    simp only [answerAllBy, answerAll, Recorded.result_bind, answerBy_result, ih,
      Recorded.result_pure]

end Session
end TacBench.Debug
