import TacBench.Proofs.Record

/-! A stop is final. Wherever it comes from, between two calls or from a write in the middle of one,
no instruction of any program begins after it until a program is launched again. -/
namespace TacBench.Debug

/-- No instruction begins before the next launch. -/
def Hushed : List Event → Prop
  | [] => True
  | .launch :: _ => True
  | .begins _ _ :: _ => False
  | .stop :: rest => Hushed rest

/-- After each stop no instruction begins before the next launch. -/
def StopsLast : List Event → Prop
  | [] => True
  | .stop :: rest => Hushed rest ∧ StopsLast rest
  | .launch :: rest => StopsLast rest
  | .begins _ _ :: rest => StopsLast rest

/-- No instruction begins. -/
def Idle (events : List Event) : Prop := ∀ p m, .begins p m ∉ events

variable {front events rest : List Event}

theorem Hushed.append (hushed : Hushed events) (later : .launch ∉ events → Hushed rest) :
    Hushed (events ++ rest) := by
  induction events with
  | nil => exact later List.not_mem_nil
  | cons e events ih =>
    cases e with
    | launch => trivial
    | begins p m => exact hushed.elim
    | stop => exact ih hushed fun silent => later fun member => silent (by simpa using member)

theorem StopsLast.prepend (unstopped : .stop ∉ front) (final : StopsLast rest) :
    StopsLast (front ++ rest) := by
  induction front with
  | nil => exact final
  | cons e front ih =>
    obtain ⟨other, later⟩ := List.ne_and_not_mem_of_not_mem_cons unstopped
    cases e with
    | stop => exact absurd rfl other
    | launch => exact ih later
    | begins p m => exact ih later

theorem StopsLast.suffix (final : StopsLast (front ++ rest)) : StopsLast rest := by
  induction front with
  | nil => exact final
  | cons e front ih =>
    cases e with
    | stop => exact ih final.2
    | launch => exact ih final
    | begins p m => exact ih final

theorem Hushed.launch_mem {p : Program} {m : Machine}
    (hushed : Hushed (events ++ .begins p m :: rest)) : .launch ∈ events := by
  induction events with
  | nil => exact hushed.elim
  | cons e events ih =>
    cases e with
    | launch => exact List.mem_cons_self
    | begins q n => exact hushed.elim
    | stop => exact List.mem_cons_of_mem _ (ih hushed)

theorem Idle.append (idle : Idle (front ++ rest)) : Idle front ∧ Idle rest :=
  ⟨fun p m member => idle p m (List.mem_append_left _ member),
    fun p m member => idle p m (List.mem_append_right _ member)⟩

namespace Session

/-- Nothing can be stepped, and no walk is held that another launch could bring back. -/
structure Quiet (s : Session) : Prop where
  inactive : s.active ≠ some true
  dropped : s.walk = none

/-- Events and the session they lead to: a stop can only be the last of them, and quiets the
session. -/
inductive Leaves : List Event → Session → Prop
  | unstopped {events : List Event} {s : Session} (unstopped : .stop ∉ events) : Leaves events s
  | stopped {events : List Event} {s : Session} (unstopped : .stop ∉ events) (quiet : Quiet s) :
      Leaves (events ++ [.stop]) s

variable {rule : StopRule} {s s' : Session} {w : Walk}

theorem stop_quiet (s : Session) : Quiet s.stop := ⟨nofun, rfl⟩

theorem Quiet.keep (quiet : Quiet s) (w : Walk) : Quiet (s.keep w) := by
  refine ⟨quiet.inactive, ?_⟩
  rw [Session.keep, quiet.dropped]
  rfl

theorem Quiet.closed (quiet : Quiet s) {active : Option Bool} (closed : active ≠ some true) :
    Quiet { s with active } :=
  ⟨closed, quiet.dropped⟩

theorem Leaves.imp (leaves : Leaves events s) (quiets : Quiet s → Quiet s') : Leaves events s' := by
  cases leaves with
  | unstopped unstopped => exact .unstopped unstopped
  | stopped unstopped quiet => exact .stopped unstopped (quiets quiet)

theorem Leaves.prepend (leaves : Leaves events s) (unstopped : .stop ∉ front) :
    Leaves (front ++ events) s := by
  cases leaves with
  | unstopped silent => exact .unstopped (by simp [unstopped, silent])
  | stopped silent quiet =>
    rw [← List.append_assoc]
    exact .stopped (by simp [unstopped, silent]) quiet

theorem Leaves.not_stopped (leaves : Leaves events s) (active : s.active = some true) :
    .stop ∉ events := by
  cases leaves with
  | unstopped unstopped => exact unstopped
  | stopped _ quiet => exact absurd active quiet.inactive

theorem carryOut_unstopped (p : Program) (m : Machine) :
    .stop ∉ (Recorded.carryOut p m).events := by
  unfold Recorded.carryOut
  split <;> simp

theorem resumeBy_leaves (rule : StopRule) (w : Walk) (s : Session) :
    Leaves (resumeBy rule w s).events (resumeBy rule w s).result.2.2 := by
  have begun : .stop ∉ [Event.begins w.program (s.attach w.machine)] := by simp
  have resumption := resumeBy_resumption rule w s
  generalize resumeBy rule w s = resumed at resumption ⊢
  cases resumption with
  | past => exact .unstopped List.not_mem_nil
  | fresh => exact .unstopped List.not_mem_nil
  | ended => exact .unstopped List.not_mem_nil
  | interrupted => exact .unstopped begun
  | failed => exact .unstopped begun
  | next => exact .unstopped begun
  | @stopped m => exact (Leaves.stopped List.not_mem_nil (stop_quiet (s.detach m))).prepend begun

theorem walkBy_leaves (rule : StopRule) (fuel : Nat) (w : Walk) (s : Session) :
    Leaves (walkBy rule fuel w s).events (walkBy rule fuel w s).result.2 := by
  induction fuel generalizing w s with
  | zero => exact .unstopped List.not_mem_nil
  | succ fuel ih =>
    have leaves := resumeBy_leaves rule w s
    have walks := walkBy_walksOn rule fuel w s
    generalize resumeBy rule w s = resumed, walkBy rule (fuel + 1) w s = walked at leaves walks ⊢
    cases walks with
    | past => exact leaves.imp fun quiet => (quiet.keep _).closed nofun
    | failed => exact leaves.imp (·.keep _)
    | closed => exact leaves.imp (·.keep _)
    | unplaced => exact leaves.imp (·.keep _)
    | shown => exact leaves.imp (·.keep _)
    -- The walk goes on only in an open session, which has not been stopped.
    | further active => exact (ih _ _).prepend (leaves.not_stopped active)

theorem onWalk_leaves {go : Walk → Recorded (Reply × Session)}
    (leaves : ∀ w, Leaves (go w).events (go w).result.2) (s : Session) :
    Leaves (s.onWalk go).events (s.onWalk go).result.2 := by
  unfold onWalk
  split
  · exact .unstopped List.not_mem_nil
  · cases s.walk with
    | none => exact .unstopped List.not_mem_nil
    | some w => exact leaves w

theorem nextLineBy_leaves (rule : StopRule) (s : Session) :
    Leaves (nextLineBy rule s).events (nextLineBy rule s).result.2 := by
  refine onWalk_leaves (fun w => (resumeBy_leaves rule w s).imp fun quiet => ?_) s
  generalize resumeBy rule w s = resumed at quiet ⊢
  obtain ⟨⟨_ | _ | f, w, s⟩, events⟩ := resumed
  · exact quiet.keep w
  · exact (quiet.keep w).closed nofun
  · exact quiet.keep w

theorem runLoopBy_leaves (rule : StopRule) (p : Program) (fuel : Nat) (m : Machine) (s : Session) :
    Leaves (runLoopBy rule p fuel m s).events (runLoopBy rule p fuel m s).result.2 := by
  induction fuel generalizing m s with
  | zero => exact .unstopped List.not_mem_nil
  | succ fuel ih =>
    unfold runLoopBy
    rw [Recorded.events_bind, Recorded.result_bind]
    refine Leaves.prepend ?_ (carryOut_unstopped p m)
    cases (Recorded.carryOut p m).result with
    | ended => exact .unstopped List.not_mem_nil
    | interrupted m' => exact .unstopped List.not_mem_nil
    | failed f m' => exact .unstopped List.not_mem_nil
    | next m' =>
      dsimp only
      split
      · exact .stopped List.not_mem_nil (stop_quiet _)
      · exact ih m' s

theorem answerBy_leaves (rule : StopRule) (s : Session) (c : Call) :
    Leaves (answerBy rule s c).events (answerBy rule s c).result.2 := by
  have launched : .stop ∉ [Event.launch] := by decide
  cases c with
  | debug fuel code breakpoints =>
    rw [answerBy]
    cases loaded : Program.load code with
    | error f =>
      rw [debugBy_error loaded]
      exact .unstopped launched
    | ok p =>
      rw [debugBy_ok loaded]
      exact (onWalk_leaves (fun w => walkBy_leaves rule fuel w _) _).prepend launched
  | run fuel code =>
    rw [answerBy]
    cases loaded : Program.load code with
    | error f =>
      rw [runBy_error loaded]
      exact .unstopped launched
    | ok p =>
      rw [runBy_ok loaded]
      exact (runLoopBy_leaves ..).prepend launched
  | ask r =>
    cases r with
    | line => exact nextLineBy_leaves rule s
    | breakpoint fuel => exact onWalk_leaves (fun w => walkBy_leaves rule fuel w s) s
    | edit e => exact .unstopped List.not_mem_nil
  | stop => exact .stopped List.not_mem_nil (stop_quiet s)

/-- A quiet session stays quiet, and begins nothing, until a program is launched. -/
theorem Quiet.answerBy (quiet : Quiet s) (rule : StopRule) (c : Call) :
    Hushed (answerBy rule s c).events ∧
      (.launch ∉ (answerBy rule s c).events → Quiet (answerBy rule s c).result.2) := by
  have refused (go : Walk → Recorded (Reply × Session)) :
      s.onWalk go = ⟨(.error .inactive, s), []⟩ := if_pos quiet.inactive
  cases c with
  | debug fuel code breakpoints => exact ⟨trivial, fun silent => absurd List.mem_cons_self silent⟩
  | run fuel code => exact ⟨trivial, fun silent => absurd List.mem_cons_self silent⟩
  | ask r =>
    cases r with
    | line =>
      simp only [Session.answerBy, performBy, nextLineBy, refused, Recorded.map]
      exact ⟨trivial, fun _ => quiet⟩
    | breakpoint fuel =>
      simp only [Session.answerBy, performBy, nextBreakpointBy, refused, Recorded.map]
      exact ⟨trivial, fun _ => quiet⟩
    | edit e =>
      obtain ⟨lines, same⟩ := edit_breakpoints s e
      refine ⟨trivial, fun _ => ?_⟩
      simp only [Session.answerBy, performBy, Recorded.result_pure, same]
      exact ⟨quiet.inactive, quiet.dropped⟩
  | stop => exact ⟨trivial, fun _ => stop_quiet s⟩

theorem answerAllBy_stopsLast (rule : StopRule) (s : Session) (calls : List Call) :
    StopsLast (answerAllBy rule s calls).events ∧
      (Quiet s → Hushed (answerAllBy rule s calls).events) := by
  induction calls generalizing s with
  | nil => exact ⟨trivial, fun _ => trivial⟩
  | cons c rest ih =>
    have leaves := answerBy_leaves rule s c
    have hushes (quiet : Quiet s) := quiet.answerBy rule c
    simp only [answerAllBy, Recorded.events_bind, Recorded.events_pure, List.append_nil]
    obtain ⟨final, hushed⟩ := ih (answerBy rule s c).result.2
    generalize (answerBy rule s c).events = events at leaves hushes ⊢
    refine ⟨?_, fun quiet => (hushes quiet).1.append fun silent => hushed ((hushes quiet).2 silent)⟩
    cases leaves with
    | unstopped unstopped => exact final.prepend unstopped
    | stopped unstopped quiet =>
      -- The stop is the last event of the call, so what follows it is what the quiet session does.
      rw [List.append_assoc]
      exact StopsLast.prepend unstopped ⟨hushed quiet, final⟩

theorem carryOut_idle {p : Program} {m : Machine} (idle : Idle (Recorded.carryOut p m).events) :
    (Recorded.carryOut p m).result = .ended := by
  refine Machine.step_ended.mpr ?_
  cases fetched : p.fetch? m with
  | none => rfl
  | some i => exact absurd (by simp [Recorded.carryOut, fetched]) (idle p m)

theorem resumeBy_idle (idle : Idle (resumeBy rule w s).events) :
    (resumeBy rule w s).result.2.2 = s := by
  have resumption := resumeBy_resumption rule w s
  generalize resumeBy rule w s = resumed at resumption idle ⊢
  cases resumption with
  | past => rfl
  | fresh => rfl
  | ended => rfl
  | interrupted => exact absurd List.mem_cons_self (idle _ _)
  | failed => exact absurd List.mem_cons_self (idle _ _)
  | next => exact absurd List.mem_cons_self (idle _ _)
  | stopped => exact absurd List.mem_cons_self (idle _ _)

/-- Nothing has been read or written. -/
structure Untouched (s s' : Session) : Prop where
  input : s'.input = s.input
  written : s'.written = s.written

theorem walkBy_idle {fuel : Nat} (idle : Idle (walkBy rule fuel w s).events) :
    Untouched s (walkBy rule fuel w s).result.2 := by
  induction fuel generalizing w s with
  | zero => exact ⟨rfl, rfl⟩
  | succ fuel ih =>
    have same : Idle (resumeBy rule w s).events → _ := resumeBy_idle
    have walks := walkBy_walksOn rule fuel w s
    generalize resumeBy rule w s = resumed, walkBy rule (fuel + 1) w s = walked at same walks idle ⊢
    cases walks with
    | past => cases same idle; exact ⟨rfl, rfl⟩
    | failed => cases same idle; exact ⟨rfl, rfl⟩
    | closed => cases same idle; exact ⟨rfl, rfl⟩
    | unplaced => cases same idle; exact ⟨rfl, rfl⟩
    | shown => cases same idle; exact ⟨rfl, rfl⟩
    | further =>
      cases same idle.append.1
      exact ih idle.append.2

theorem onWalk_untouched {go : Walk → Recorded (Reply × Session)}
    (untouched : ∀ w, Idle (go w).events → Untouched s (go w).result.2)
    (idle : Idle (s.onWalk go).events) : Untouched s (s.onWalk go).result.2 := by
  unfold onWalk at idle ⊢
  split at idle
  · rename_i closed
    rw [if_pos closed]
    exact ⟨rfl, rfl⟩
  · rename_i active
    rw [if_neg active]
    cases walk : s.walk with
    | none => exact ⟨rfl, rfl⟩
    | some w =>
      simp only [walk] at idle
      exact untouched w idle

theorem runLoopBy_idle {p : Program} {fuel : Nat} {m : Machine}
    (idle : Idle (runLoopBy rule p fuel m s).events) :
    (runLoopBy rule p fuel m s).result.2 = s.detach m := by
  cases fuel with
  | zero => rfl
  | succ fuel =>
    unfold runLoopBy at idle ⊢
    rw [Recorded.events_bind] at idle
    rw [Recorded.result_bind, carryOut_idle idle.append.1]
    rfl

/-- A call that begins no instruction reads and writes nothing. -/
theorem answerBy_idle {c : Call} (idle : Idle (answerBy rule s c).events) :
    Untouched s (answerBy rule s c).result.2 := by
  cases c with
  | debug fuel code breakpoints =>
    rw [answerBy] at idle ⊢
    cases loaded : Program.load code with
    | error f =>
      rw [debugBy_error loaded]
      exact ⟨rfl, rfl⟩
    | ok p =>
      rw [debugBy_ok loaded] at idle ⊢
      obtain ⟨input, written⟩ := onWalk_untouched (fun w => walkBy_idle) idle.append.2
      exact ⟨input, written⟩
  | run fuel code =>
    rw [answerBy] at idle ⊢
    cases loaded : Program.load code with
    | error f =>
      rw [runBy_error loaded]
      exact ⟨rfl, rfl⟩
    | ok p =>
      rw [runBy_ok loaded] at idle ⊢
      have same := runLoopBy_idle idle.append.2
      have input := congrArg Session.input same
      have written := congrArg Session.written same
      exact ⟨input, written⟩
  | ask r =>
    cases r with
    | line =>
      refine onWalk_untouched (fun w idle => ?_) idle
      have same := resumeBy_idle idle
      simp only [Recorded.map]
      generalize resumeBy rule w s = resumed at same ⊢
      obtain ⟨⟨_ | _ | f, w, s⟩, events⟩ := resumed <;> cases same <;> exact ⟨rfl, rfl⟩
    | breakpoint fuel => exact onWalk_untouched (fun w => walkBy_idle) idle
    | edit e =>
      obtain ⟨lines, same⟩ := edit_breakpoints s e
      simp only [answerBy, performBy, Recorded.result_pure, same]
      exact ⟨rfl, rfl⟩
  | stop => exact ⟨rfl, rfl⟩

/-- For any calls and whichever writes stop the session: between a stop and an instruction that
begins later a program is launched. The record holds what the session does: without it the calls
answer the same, and where no instruction begins nothing is read or written. -/
theorem stop_final (rule : StopRule) (s : Session) (calls : List Call) :
    (∀ front between rest p m,
      (answerAllBy rule s calls).events = front ++ .stop :: (between ++ .begins p m :: rest) →
        .launch ∈ between) ∧
    (answerAllBy stopsAt s calls).result = s.answerAll calls ∧
    ∀ c, (∀ p m, .begins p m ∉ (answerBy stopsAt s c).events) →
      (s.answer c).2.input = s.input ∧ (s.answer c).2.written = s.written := by
  refine ⟨?_, answerAllBy_result s calls, fun c idle => ?_⟩
  · intro front between rest p m split
    have final := (answerAllBy_stopsLast rule s calls).1
    rw [split] at final
    exact final.suffix.1.launch_mem
  · have untouched := answerBy_idle idle
    rw [answerBy_result] at untouched
    exact ⟨untouched.input, untouched.written⟩

def writesTwice : Program where
  instructions :=
    #[⟨.label, [.label "a"], 2, "LABEL a"⟩,
      ⟨.write, [.constant (.str "x")], 3, "WRITE string@x"⟩,
      ⟨.write, [.constant (.str "y")], 4, "WRITE string@y"⟩]

def writesTwiceCode : String := ".IFJcode17\nLABEL a\nWRITE string@x\nWRITE string@y\n"

def stopsOnX : Session := { stopOn := some "x" }

/-- A walk outlives the run of another program. Its next instruction makes the write that stops the
session, and later it is debugged anew. -/
def writesTwiceRecord : List Event :=
  (answerAllBy stopsAt stopsOnX
    [.debug 9 writesTwiceCode [3], .run 9 ".IFJcode17\nWRITE string@b\n", .ask .line, .ask .line,
      .debug 9 writesTwiceCode []]).events

def writesTwiceAnew : Machine :=
  { writesTwice.start "" none with written := [(.out, "x"), (.out, "b")] }

theorem writesTwice_relaunched :
    writesTwiceRecord = writesTwiceRecord.take 5 ++ .stop :: ([.launch] ++
      .begins writesTwice writesTwiceAnew :: writesTwiceRecord.drop 8) ∧
    .launch ∈ [Event.launch] ∧
    (∀ p m, .begins p m ∉ (answerBy stopsAt stopsOnX .stop).events) ∧
    (stopsOnX.answer .stop).2.written = [] := by
  have split : writesTwiceRecord = writesTwiceRecord.take 5 ++ .stop :: ([.launch] ++
      .begins writesTwice writesTwiceAnew :: writesTwiceRecord.drop 8) := by
    decide +kernel
  have idle (p : Program) (m : Machine) : .begins p m ∉ (answerBy stopsAt stopsOnX .stop).events :=
    List.not_mem_cons_of_ne_of_not_mem nofun List.not_mem_nil
  obtain ⟨final, -, untouched⟩ := stop_final stopsAt stopsOnX _
  exact ⟨split, final _ _ _ _ _ split, idle, (untouched .stop idle).2⟩

end Session
end TacBench.Debug
