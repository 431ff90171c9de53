import TacBench.Debug.Session
import TacBench.Proofs.Loaded
import TacBench.Proofs.States

/-! Stepping against running. However a program is walked through and however breakpoints change
meanwhile, a session shows states of the program's run, in the order of the run, and it ends as the
run ends. -/
namespace TacBench.Debug

open Machine (stateAt stateAt_succ stateAt_of_le stateAt_eq_none run_of_stateAt step_ended)

abbrev Reply := Except Fault (Option Machine)

/-- How the walk has ended, if the reply says so. -/
def Reply.outcome? : Reply → Option Machine.Outcome
  | .ok none => some .finished
  | .error (.program f) => some (.failed f)
  | _ => none

inductive Edit where
  | add (line : Int)
  | remove (line : Int)
  | assign (lines : List Int)
  deriving DecidableEq, Repr

/-- What is asked of a session that walks through a program. -/
inductive Request where
  | line
  | breakpoint (fuel : Nat)
  | edit (e : Edit)
  deriving DecidableEq, Repr

/-- Requests with their replies; a change of the breakpoints has none. -/
abbrev Dialogue := List (Request × Option Reply)

namespace Session

/-- Changes the breakpoints; one that is not there cannot be removed, and nothing changes. -/
def edit (s : Session) : Edit → Session
  | .add line => s.addBreakpoint line
  | .remove line => (s.removeBreakpoint line).toOption.getD s
  | .assign lines => s.setBreakpoints lines

def perform (s : Session) : Request → Option Reply × Session
  | .line => s.nextLine.map some id
  | .breakpoint fuel => (s.nextBreakpoint fuel).map some id
  | .edit e => (none, s.edit e)

def performAll (s : Session) : List Request → Dialogue × Session
  | [] => ([], s)
  | r :: rest =>
    let answered := s.perform r
    let later := answered.2.performAll rest
    ((r, answered.1) :: later.1, later.2)

/-- A program is debugged, which walks to the first breakpoint, and then requests are made. -/
def conversation (fuel : Nat) (code : String) (breakpoints : List Int) (requests : List Request)
    (s : Session) : Dialogue × Session :=
  let opened := s.debug fuel code breakpoints
  let later := opened.2.performAll requests
  ((.breakpoint fuel, some opened.1) :: later.1, later.2)

/-- The stage and the machine of a walk that next comes to the state with this number. -/
inductive Awaits (p : Program) (start : Machine) : Nat → Stage → Machine → Prop
  | fresh : Awaits p start 0 .fresh start
  | paused {n : Nat} {m : Machine} (reached : stateAt p start n = some m)
      (more : (p.fetch? m).isSome) : Awaits p start (n + 1) .paused m

/-- A walk that shares the input and output of an open session and has not ended. -/
structure Standing (p : Program) (start : Machine) (n : Nat) (w : Walk) (s : Session) : Prop where
  walked : w.program = p
  enabled : w.enabled = true
  loaded : s.program = some p
  active : s.active = some true
  unstopped : s.stopOn = none
  walking : s.walk.isSome
  awaits : Awaits p start n w.stage (s.attach w.machine)

/-- A walk that has ended as the run of its program ends, output included. -/
structure Ended (p : Program) (start : Machine) (o : Machine.Outcome) (w : Walk) (s : Session) :
    Prop where
  stage : w.stage = .over
  run : ∃ fuel, Machine.run p fuel start = (o, w.machine)
  attached : s.attach w.machine = w.machine
  walking : s.walk.isSome

/-- No state from this number on has an instruction to carry out. -/
def Exhausted (p : Program) (start : Machine) (n : Nat) : Prop :=
  ∀ k m, n ≤ k → stateAt p start k = some m → p.fetch? m = none

/-- What resuming a walk comes to if it waits for the state with number `n`. -/
inductive Resumes (p : Program) (start : Machine) (n : Nat) : Resumed × Walk × Session → Prop
  | paused {w : Walk} {s : Session} (reached : stateAt p start n = some w.machine)
      (more : (p.fetch? w.machine).isSome) (standing : Standing p start (n + 1) w s) :
      Resumes p start n (.paused, w, s)
  | finished {w : Walk} {s : Session} (ended : Ended p start .finished w s)
      (last : Exhausted p start n) : Resumes p start n (.over, w, s)
  | failed {w : Walk} {s : Session} {f : Machine.Failure} (ended : Ended p start (.failed f) w s)
      (last : Exhausted p start n) : Resumes p start n (.failed f, w, s)

def Waiting (p : Program) (start : Machine) (n : Nat) (s : Session) : Prop :=
  ∃ w, s.walk = some w ∧ Standing p start n w s

def Over (p : Program) (start : Machine) (o : Machine.Outcome) (s : Session) : Prop :=
  ∃ w, s.walk = some w ∧ Ended p start o w s

/-- How a session that waits for the state with number `n` answers a request to go on. Only the walk
to a breakpoint can run out of fuel, and then every unit of it has led one state further. -/
inductive Answers (p : Program) (start : Machine) (n : Nat) : Request → Reply → Session → Prop
  | state {r : Request} {k : Nat} {m : Machine} {s : Session} (later : n ≤ k)
      (reached : stateAt p start k = some m) (more : (p.fetch? m).isSome)
      (waiting : Waiting p start (k + 1) s) : Answers p start n r (.ok (some m)) s
  | starved {fuel : Nat} {s : Session} (waiting : Waiting p start (n + fuel) s) :
      Answers p start n (.breakpoint fuel) (.error .outOfFuel) s
  | ended {r : Request} {reply : Reply} {o : Machine.Outcome} {s : Session}
      (told : reply.outcome? = some o) (past : Over p start o s) : Answers p start n r reply s

/-- The state that is shown in reply to a request, if one is. -/
def shown? : Request × Option Reply → Option Machine
  | (_, some (.ok (some m))) => some m
  | _ => none

/-- How a walk ends, as the first reply tells that says so. -/
def ending? (dialogue : Dialogue) : Option Machine.Outcome :=
  dialogue.findSome? fun q => q.2.bind Reply.outcome?

/-- A dialogue with a session that waits for the state with number `n`, and the session after it. -/
inductive Follows (p : Program) (start : Machine) :
    Nat → Dialogue → Session → Prop
  | done {n : Nat} {s : Session} : Follows p start n [] s
  | edited {n : Nat} {e : Edit} {dialogue : Dialogue} {s : Session}
      (rest : Follows p start n dialogue s) : Follows p start n ((.edit e, none) :: dialogue) s
  | state {n k : Nat} {r : Request} {m : Machine} {dialogue : Dialogue}
      {s : Session} (later : n ≤ k) (reached : stateAt p start k = some m)
      (more : (p.fetch? m).isSome) (rest : Follows p start (k + 1) dialogue s) :
      Follows p start n ((r, some (.ok (some m))) :: dialogue) s
  | starved {n k fuel : Nat} {dialogue : Dialogue} {s : Session}
      (later : n ≤ k) (long : ∀ j < fuel, (Machine.run p j start).1 = .outOfFuel)
      (rest : Follows p start k dialogue s) :
      Follows p start n ((.breakpoint fuel, some (.error .outOfFuel)) :: dialogue) s
  | ended {n : Nat} {r : Request} {reply : Reply} {o : Machine.Outcome}
      {dialogue : Dialogue} {s : Session} (told : reply.outcome? = some o)
      (past : Over p start o s) (silent : ∀ q ∈ dialogue, shown? q = none) :
      Follows p start n ((r, some reply) :: dialogue) s

variable {p : Program} {start m : Machine} {n k fuel : Nat} {w : Walk} {s : Session}

theorem Exhausted.behind (reached : stateAt p start n = some m) (stops : Machine.next? p m = none) :
    Exhausted p start (n + 1) := by
  intro k x later found
  rw [stateAt_eq_none reached stops later] at found
  cases found

theorem Exhausted.at_end (reached : stateAt p start n = some m) (fetched : p.fetch? m = none) :
    Exhausted p start n := by
  intro k x later found
  rcases Nat.eq_or_lt_of_le later with rfl | later
  · cases Option.some.inj (reached.symm.trans found)
    exact fetched
  · have stops : Machine.next? p m = none := by simp only [Machine.next?, step_ended.mpr fetched]
    exact Exhausted.behind reached stops k x later found

theorem settle_resumes (standing : Standing p start k w s) (reached : stateAt p start n = some m) :
    Resumes p start n ((Walk.settle w m).1, (Walk.settle w m).2, s.detach m) := by
  obtain ⟨walked, enabled, loaded, active, unstopped, walking, -⟩ := standing
  simp only [Walk.settle, enabled, walked, Bool.true_and]
  cases fetched : p.fetch? m with
  | none =>
    have finished : Machine.run p (n + 1) start = (.finished, m) := by
      rw [run_of_stateAt reached, Machine.run, step_ended.mpr fetched]
    exact .finished ⟨rfl, ⟨_, finished⟩, rfl, walking⟩ (.at_end reached fetched)
  | some i =>
    have more : (p.fetch? m).isSome := by rw [fetched]; rfl
    exact .paused reached more
      ⟨rfl, rfl, loaded, active, unstopped, walking, .paused reached more⟩

theorem stopsAt_unstopped (unstopped : s.stopOn = none) (before after : Machine) :
    s.stopsAt before after = false := by
  rw [stopsAt, unstopped]

theorem resume_resumes (standing : Standing p start n w s) : Resumes p start n (resume w s) := by
  have awaits := standing.awaits
  unfold resume
  split
  · rename_i past
    rw [past] at awaits
    cases awaits
  · rename_i fresh
    rw [fresh] at awaits
    cases awaits
    exact settle_resumes standing rfl
  · rename_i paused
    rw [paused] at awaits
    generalize s.attach w.machine = before at awaits ⊢
    obtain _ | ⟨reached, more⟩ := awaits
    rename_i n
    rw [standing.walked]
    dsimp only
    cases stepped : Machine.step p before with
    | ended =>
      -- A walk pauses only where there is an instruction.
      rw [step_ended.mp stepped] at more
      cases more
    | interrupted m =>
      have finished : Machine.run p (n + 1) start = (.finished, m) := by
        rw [run_of_stateAt reached, Machine.run, stepped]
      have stops : Machine.next? p before = none := by simp only [Machine.next?, stepped]
      exact .finished ⟨rfl, ⟨_, finished⟩, rfl, standing.walking⟩ (.behind reached stops)
    | failed f m =>
      have failed : Machine.run p (n + 1) start = (.failed f, m) := by
        rw [run_of_stateAt reached, Machine.run, stepped]
      have stops : Machine.next? p before = none := by simp only [Machine.next?, stepped]
      exact .failed ⟨rfl, ⟨_, failed⟩, rfl, standing.walking⟩ (.behind reached stops)
    | next m =>
      simp only [stopsAt_unstopped standing.unstopped, Bool.false_eq_true, ↓reduceIte,
        Bool.false_and]
      exact settle_resumes standing (stateAt_succ.mpr ⟨before, reached, stepped⟩)

theorem keep_walk (walking : s.walk.isSome) (w : Walk) : (s.keep w).walk = some w := by
  obtain ⟨old, walk⟩ := Option.isSome_iff_exists.mp walking
  rw [keep, walk]
  rfl

theorem Standing.keep (standing : Standing p start n w s) : Waiting p start n (s.keep w) := by
  obtain ⟨walked, enabled, loaded, active, unstopped, walking, awaits⟩ := standing
  have walk := keep_walk walking w
  exact ⟨w, walk, walked, enabled, loaded, active, unstopped, Option.isSome_of_eq_some walk, awaits⟩

theorem Ended.keep {o : Machine.Outcome} (ended : Ended p start o w s) (active : Option Bool) :
    Over p start o { s.keep w with active } := by
  obtain ⟨stage, run, attached, walking⟩ := ended
  have walk := keep_walk walking w
  exact ⟨w, walk, stage, run, attached, Option.isSome_of_eq_some walk⟩

theorem nextLine_answers (waiting : Waiting p start n s) :
    Answers p start n .line s.nextLine.1 s.nextLine.2 := by
  obtain ⟨w, walk, standing⟩ := waiting
  have resumed := resume_resumes standing
  simp only [nextLine, standing.active, ne_eq, not_true_eq_false, ↓reduceIte, walk]
  generalize resume w s = result at resumed ⊢
  cases resumed with
  | paused reached more standing => exact .state (Nat.le_refl n) reached more standing.keep
  | finished ended _ => exact .ended rfl (ended.keep none)
  | failed ended _ => exact .ended rfl (ended.keep _)

theorem lineAt?_of_fetch? (more : (p.fetch? m).isSome) : ∃ line, p.lineAt? m.pc = some line := by
  obtain ⟨i, fetched⟩ := Option.isSome_iff_exists.mp more
  exact ⟨i.index, Program.lineAt?_of_at? (p.fetch?_eq m ▸ fetched)⟩

theorem Answers.earlier {reply : Reply}
    (answers : Answers p start (n + 1) (.breakpoint fuel) reply s) :
    Answers p start n (.breakpoint (fuel + 1)) reply s := by
  cases answers with
  | state later reached more waiting => exact .state (by omega) reached more waiting
  | starved waiting => exact .starved (by rwa [Nat.add_right_comm] at waiting)
  | ended told past => exact .ended told past

theorem walkToBreakpoint_answers (standing : Standing p start n w s) (fuel : Nat) :
    Answers p start n (.breakpoint fuel) (walkToBreakpoint fuel w s).1
    (walkToBreakpoint fuel w s).2 := by
  -- Each unit of fuel leads to one more state, so the number of the state awaited grows as it is
  -- used.
  induction fuel generalizing n w s with
  | zero => exact .starved standing.keep
  | succ fuel ih =>
    have resumed := resume_resumes standing
    unfold walkToBreakpoint
    generalize resume w s = result at resumed ⊢
    cases resumed with
    | finished ended _ => exact .ended rfl (ended.keep (some false))
    | failed ended _ => exact .ended rfl (ended.keep _)
    | @paused w s reached more standing =>
      obtain ⟨line, placed⟩ := lineAt?_of_fetch? more
      simp only [standing.active, ne_eq, not_true_eq_false, ↓reduceIte, standing.loaded,
        Option.bind_some, placed]
      split
      · exact .state (Nat.le_refl n) reached more standing.keep
      · exact (ih standing).earlier

theorem nextBreakpoint_answers (waiting : Waiting p start n s) (fuel : Nat) :
    Answers p start n (.breakpoint fuel) (s.nextBreakpoint fuel).1 (s.nextBreakpoint fuel).2 := by
  obtain ⟨w, walk, standing⟩ := waiting
  simp only [nextBreakpoint, standing.active, ne_eq, not_true_eq_false, ↓reduceIte, walk]
  exact walkToBreakpoint_answers standing fuel

theorem shown?_eq_none {r : Request} {reply : Reply} (silent : ∀ m, reply ≠ .ok (some m)) :
    shown? (r, some reply) = none := by
  unfold shown?
  split
  · rename_i m same
    cases same
    exact absurd rfl (silent m)
  · rfl

theorem shown?_of_outcome? {r : Request} {reply : Reply} {o : Machine.Outcome}
    (told : reply.outcome? = some o) : shown? (r, some reply) = none := by
  refine shown?_eq_none fun m same => ?_
  rw [same] at told
  cases told

/-- A session that is over stays so, and shows no further state. -/
theorem Over.nextLine {o : Machine.Outcome} (past : Over p start o s) :
    Over p start o s.nextLine.2 ∧ ∀ m, s.nextLine.1 ≠ .ok (some m) := by
  obtain ⟨w, walk, ended⟩ := past
  simp only [Session.nextLine, walk, resume, ended.stage]
  split
  · exact ⟨⟨w, walk, ended⟩, nofun⟩
  · exact ⟨ended.keep none, nofun⟩

theorem Over.nextBreakpoint {o : Machine.Outcome} (past : Over p start o s) (fuel : Nat) :
    Over p start o (s.nextBreakpoint fuel).2 ∧ ∀ m, (s.nextBreakpoint fuel).1 ≠ .ok (some m) := by
  obtain ⟨w, walk, ended⟩ := past
  simp only [Session.nextBreakpoint, walk]
  split
  · exact ⟨⟨w, walk, ended⟩, nofun⟩
  · cases fuel with
    | zero => exact ⟨ended.keep _, nofun⟩
    | succ fuel =>
      simp only [walkToBreakpoint, resume, ended.stage]
      exact ⟨ended.keep (some false), nofun⟩

theorem edit_breakpoints (s : Session) (e : Edit) :
    ∃ lines, s.edit e = { s with breakpoints := lines } := by
  cases e with
  | add line =>
    by_cases known : line ∈ s.breakpoints
    · exact ⟨s.breakpoints, by rw [edit, addBreakpoint, if_pos known]⟩
    · exact ⟨_, by rw [edit, addBreakpoint, if_neg known]⟩
  | remove line =>
    by_cases known : line ∈ s.breakpoints
    · exact ⟨_, by rw [edit, removeBreakpoint, if_pos known]; rfl⟩
    · exact ⟨s.breakpoints, by rw [edit, removeBreakpoint, if_neg known]; rfl⟩
  | assign lines => exact ⟨_, rfl⟩

theorem Waiting.edit (waiting : Waiting p start n s) (e : Edit) : Waiting p start n (s.edit e) := by
  obtain ⟨lines, same⟩ := edit_breakpoints s e
  obtain ⟨w, walk, walked, enabled, loaded, active, unstopped, walking, awaits⟩ := waiting
  rw [same]
  exact ⟨w, walk, walked, enabled, loaded, active, unstopped, walking, awaits⟩

theorem Over.edit {o : Machine.Outcome} (past : Over p start o s) (e : Edit) :
    Over p start o (s.edit e) := by
  obtain ⟨lines, same⟩ := edit_breakpoints s e
  obtain ⟨w, walk, stage, run, attached, walking⟩ := past
  rw [same]
  exact ⟨w, walk, stage, run, attached, walking⟩

theorem Over.perform {o : Machine.Outcome} (past : Over p start o s) (r : Request) :
    Over p start o (s.perform r).2 ∧ shown? (r, (s.perform r).1) = none := by
  cases r with
  | line =>
    obtain ⟨past, silent⟩ := past.nextLine
    exact ⟨past, shown?_eq_none silent⟩
  | breakpoint fuel =>
    obtain ⟨past, silent⟩ := past.nextBreakpoint fuel
    exact ⟨past, shown?_eq_none silent⟩
  | edit e => exact ⟨past.edit e, rfl⟩

theorem Over.performAll {o : Machine.Outcome} (past : Over p start o s) (requests : List Request) :
    Over p start o (s.performAll requests).2 ∧ ∀ q ∈ (s.performAll requests).1,
    shown? q = none := by
  induction requests generalizing s with
  | nil => exact ⟨past, List.forall_mem_nil _⟩
  | cons r rest ih =>
    obtain ⟨past, silent⟩ := past.perform r
    obtain ⟨past, later⟩ := ih past
    exact ⟨past, List.forall_mem_cons.mpr ⟨silent, later⟩⟩

/-- A session that waits for a state has left all earlier ones behind. -/
theorem Waiting.long (waiting : Waiting p start n s) (before : k < n) :
    (Machine.run p k start).1 = .outOfFuel := by
  obtain ⟨w, -, standing⟩ := waiting
  have awaits := standing.awaits
  generalize w.stage = stage, s.attach w.machine = m at awaits
  cases awaits with
  | fresh => cases before
  | paused reached more =>
    obtain ⟨earlier, reached⟩ := stateAt_of_le (Nat.le_of_lt_succ before) reached
    have started := run_of_stateAt reached 0
    rw [Nat.add_zero] at started
    rw [started]
    rfl

theorem Answers.follows {r : Request} {reply : Reply} {requests : List Request}
    (answers : Answers p start n r reply s)
    (rest : ∀ k, Waiting p start k s →
      Follows p start k (s.performAll requests).1 (s.performAll requests).2) :
    Follows p start n ((r, some reply) :: (s.performAll requests).1) (s.performAll requests).2 := by
  cases answers with
  | state later reached more waiting => exact .state later reached more (rest _ waiting)
  | starved waiting =>
    exact .starved (Nat.le_add_right n _) (fun j bound => waiting.long (by omega)) (rest _ waiting)
  | ended told past =>
    obtain ⟨past, silent⟩ := past.performAll requests
    exact .ended told past silent

theorem performAll_follows (waiting : Waiting p start n s) (requests : List Request) :
    Follows p start n (s.performAll requests).1 (s.performAll requests).2 := by
  induction requests generalizing n s with
  | nil => exact .done
  | cons r rest ih =>
    cases r with
    | line => exact (nextLine_answers waiting).follows fun k waiting => ih waiting
    | breakpoint fuel =>
      exact (nextBreakpoint_answers waiting fuel).follows fun k waiting => ih waiting
    | edit e => exact .edited (ih (waiting.edit e))

/-- The session that has begun to debug a program and has not yet walked. -/
def opened (s : Session) (p : Program) (breakpoints : List Int) : Session :=
  { (s.withProgram p).setBreakpoints breakpoints with
    walk := some ⟨p, p.start "" none, .fresh, true, true⟩ }

theorem opened_waits (p : Program) (unstopped : s.stopOn = none) (breakpoints : List Int) :
    Waiting p (s.attach (p.start "" none)) 0 (s.opened p breakpoints) :=
  ⟨_, rfl, rfl, rfl, rfl, rfl, unstopped, rfl, .fresh⟩

/-- To debug is to open and then to ask for the first breakpoint. -/
theorem conversation_eq {code : String} (loaded : Program.load code = .ok p) (s : Session)
    (fuel : Nat) (breakpoints : List Int) (requests : List Request) :
    s.conversation fuel code breakpoints requests =
      (s.opened p breakpoints).performAll (.breakpoint fuel :: requests) := by
  rw [conversation, debug, loaded]
  rfl

theorem Follows.positions {dialogue : Dialogue}
    (follows : Follows p start n dialogue s) :
    ∃ positions : List Nat, (∀ k ∈ positions, n ≤ k) ∧ positions.Pairwise (· < ·) ∧
      positions.map (stateAt p start) = (dialogue.filterMap shown?).map some ∧
      ∀ m ∈ dialogue.filterMap shown?, (p.fetch? m).isSome := by
  induction follows with
  | done => exact ⟨[], by simp⟩
  | edited rest ih => exact ih
  | state later reached more rest ih =>
    rename_i n k r m dialogue s
    obtain ⟨positions, bound, ordered, states, pauses⟩ := ih
    refine ⟨k :: positions, ?_, ?_, ?_, ?_⟩
    · exact List.forall_mem_cons.mpr ⟨later, fun j member => by have := bound j member; omega⟩
    · exact List.pairwise_cons.mpr ⟨bound, ordered⟩
    · rw [List.map_cons, reached, states]
      rfl
    · exact List.forall_mem_cons.mpr ⟨more, pauses⟩
  | starved later long rest ih =>
    obtain ⟨positions, bound, rest⟩ := ih
    exact ⟨positions, fun k member => Nat.le_trans later (bound k member), rest⟩
  | ended told past silent =>
    rw [List.filterMap_eq_nil_iff.mpr (List.forall_mem_cons.mpr ⟨shown?_of_outcome? told, silent⟩)]
    exact ⟨[], by simp⟩

theorem Follows.ends {dialogue : Dialogue} {o : Machine.Outcome}
    (follows : Follows p start n dialogue s) (told : ending? dialogue = some o) :
    Over p start o s := by
  induction follows with
  | done => cases told
  | edited rest ih => exact ih told
  | state later reached more rest ih => exact ih told
  | starved later long rest ih => exact ih told
  | @ended n r reply o' dialogue s first past silent =>
    simp only [ending?, List.findSome?_cons, Option.bind_some, first] at told
    exact Option.some.inj told ▸ past

/-- Until the walk has ended, each request to go on is answered by a state, unless the fuel for it
is less than the run takes. -/
theorem Follows.answered {dialogue : Dialogue}
    (follows : Follows p start n dialogue s) (unended : ending? dialogue = none) {r : Request}
    {reply : Reply} (asked : (r, some reply) ∈ dialogue) :
    (∃ m, reply = .ok (some m)) ∨ ∃ fuel, r = .breakpoint fuel ∧ reply = .error .outOfFuel ∧
      ∀ j < fuel, (Machine.run p j start).1 = .outOfFuel := by
  induction follows with
  | done => cases asked
  | edited rest ih =>
    rcases List.mem_cons.mp asked with first | asked
    · cases first
    · exact ih unended asked
  | state later reached more rest ih =>
    rcases List.mem_cons.mp asked with first | asked
    · cases first
      exact .inl ⟨_, rfl⟩
    · exact ih unended asked
  | starved later long rest ih =>
    rcases List.mem_cons.mp asked with first | asked
    · cases first
      exact .inr ⟨_, rfl, rfl, long⟩
    · exact ih unended asked
  | ended told past silent =>
    simp only [ending?, List.findSome?_cons, Option.bind_some, told] at unended
    cases unended

/-- Whatever is asked of a session that debugs a program, the states it shows are states of the
program's run before an instruction, each later than the one before, and it ends as the run ends,
with the machine and the output of the run. -/
theorem conversation_shows_run {code : String} {p : Program} (loaded : Program.load code = .ok p)
    (s : Session) (unstopped : s.stopOn = none) (fuel : Nat) (breakpoints : List Int)
    (requests : List Request) :
    let start := s.attach (p.start "" none)
    let dialogue := (s.conversation fuel code breakpoints requests).1
    let last := (s.conversation fuel code breakpoints requests).2
    (∃ positions : List Nat, positions.Pairwise (· < ·) ∧
      positions.map (stateAt p start) = (dialogue.filterMap shown?).map some ∧
      ∀ m ∈ dialogue.filterMap shown?, (p.fetch? m).isSome) ∧
    (∀ o, ending? dialogue = some o → ∃ enough m, Machine.run p enough start = (o, m) ∧
      last.walk.map (·.machine) = some m ∧ last.input = m.input ∧ last.written = m.written) ∧
    (ending? dialogue = none → ∀ r reply, (r, some reply) ∈ dialogue →
      (∃ m, reply = .ok (some m)) ∨ ∃ fuel, r = .breakpoint fuel ∧ reply = .error .outOfFuel ∧
        ∀ j < fuel, (Machine.run p j start).1 = .outOfFuel) := by
  intro start dialogue last
  have follows : Follows p start 0 dialogue last := by
    have waits := opened_waits p unstopped breakpoints
    simpa only [dialogue, last, conversation_eq loaded] using performAll_follows waits _
  refine ⟨?_, fun o told => ?_, fun unended r reply asked => follows.answered unended asked⟩
  · obtain ⟨positions, -, ordered, states, pauses⟩ := follows.positions
    exact ⟨positions, ordered, states, pauses⟩
  · obtain ⟨w, walk, ended⟩ := follows.ends told
    obtain ⟨enough, ran⟩ := ended.run
    have input := congrArg Machine.input ended.attached
    have written := congrArg Machine.written ended.attached
    exact ⟨enough, w.machine, ran, congrArg (Option.map (·.machine)) walk, input, written⟩

/-- Reads a number, writes it and then adds a text to it. -/
def mixedSum : Program where
  instructions :=
    let x : Operand := .var ⟨.globals, true, true⟩ "x"
    #[⟨.defVar, [x], 2, "DEFVAR GF@x"⟩,
      ⟨.read, [x, .dataType .int], 3, "READ GF@x int"⟩,
      ⟨.write, [x], 4, "WRITE GF@x"⟩,
      ⟨.binary .add, [x, x, .constant (.str "a")], 5, "ADD GF@x GF@x string@a"⟩]

def mixedSumCode : String :=
  ".IFJcode17\nDEFVAR GF@x\nREAD GF@x int\nWRITE GF@x\nADD GF@x GF@x string@a\n"

/-- Paused at the write, sent one line on and then sent to a breakpoint that is not reached. -/
def mixedSumConversation : Dialogue × Session :=
  ({ input := "5\n".toList } : Session).conversation 9 mixedSumCode [4]
    [.edit (.add 2), .line, .breakpoint 9]

theorem mixedSum_loads : Program.load mixedSumCode = .ok mixedSum :=
  eq_ok_of_toOption (by decide +kernel)

theorem mixedSum_conversation :
    Program.load mixedSumCode = .ok mixedSum ∧
    (mixedSumConversation.1.filterMap shown?).map (·.pc) = [2, 3] ∧
    (∃ positions : List Nat, positions.Pairwise (· < ·) ∧
      positions.map (stateAt mixedSum (mixedSum.start "5\n" none)) =
        (mixedSumConversation.1.filterMap shown?).map some) ∧
    ∃ enough m, Machine.run mixedSum enough (mixedSum.start "5\n" none) =
        (.failed { fault := .value (.operands "+" .int .str) }, m) ∧
      mixedSumConversation.2.walk.map (·.machine) = some m ∧
      mixedSumConversation.2.input = m.input ∧ mixedSumConversation.2.written = m.written := by
  obtain ⟨⟨positions, ordered, states, -⟩, ends, -⟩ := conversation_shows_run mixedSum_loads
    { input := "5\n".toList } rfl 9 [4] [.edit (.add 2), .line, .breakpoint 9]
  have told : ending? mixedSumConversation.1 =
      some (.failed { fault := .value (.operands "+" .int .str) }) := by
    rw [mixedSumConversation, conversation_eq mixedSum_loads]
    decide +kernel
  have pauses : (mixedSumConversation.1.filterMap shown?).map (·.pc) = [2, 3] := by
    rw [mixedSumConversation, conversation_eq mixedSum_loads]
    decide +kernel
  exact ⟨mixedSum_loads, pauses, ⟨positions, ordered, states⟩, ends _ told⟩

end Session
end TacBench.Debug
