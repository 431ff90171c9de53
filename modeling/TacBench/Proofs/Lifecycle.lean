import TacBench.Proofs.Stopping

/-! The life cycle of a session. A session opens when a program that loads is debugged; while it is
open, its steps carry out the instructions of that program one after another, and once it is closed
there is nothing to step. The run of another program leaves it in between: nothing is open, and yet
the session takes requests to go on. -/
namespace TacBench.Debug

open Machine (stateAt)

def Reply.fault? : Reply → Option Fault
  | .error f => some f
  | .ok _ => none

/-- The instructions that begin, each with its program. -/
def begun (events : List Event) : List (Program × Machine) :=
  events.filterMap fun e =>
    match e with
    | .begins p m => some (p, m)
    | _ => none

theorem begun_append (first later : List Event) :
    begun (first ++ later) = begun first ++ begun later :=
  List.filterMap_append

/-- For which program a session is open. -/
inductive Life where
  | closed
  /-- Open for a program, and the instructions that have begun since. -/
  | opened (p : Program) (start : Machine) (done : List (Program × Machine))
  /-- Open for none since a program has been run, and not closed. -/
  | lingering
  deriving DecidableEq

namespace Life

def goOn (more : List (Program × Machine)) : Life → Life
  | .opened p start done => .opened p start (done ++ more)
  | life => life

/-- A step to the end closes the session. -/
def endedBy (reply : Option Reply) (life : Life) : Life :=
  match reply with
  | some (.ok none) => .closed
  | _ => life

/-- What an answer in which the session is not stopped makes of it. Code that does not load changes
nothing. -/
def unstopped (life : Life) (s : Session) (answer : Recorded (Option Reply × Session)) : Call → Life
  | .stop => .closed
  | .run _ code =>
    match Program.load code with
    | .error _ => life
    | .ok _ => .lingering
  | .debug _ code _ =>
    match Program.load code with
    | .error _ => life
    | .ok p =>
      endedBy answer.result.1 (.opened p (s.attach (p.start "" none)) (begun answer.events))
  | .ask _ => endedBy answer.result.1 (life.goOn (begun answer.events))

def next (life : Life) (s : Session) (c : Call) (answer : Recorded (Option Reply × Session)) :
    Life :=
  if .stop ∈ answer.events then .closed else life.unstopped s answer c

def along (rule : StopRule) (life : Life) (s : Session) : List Call → Life
  | [] => life
  | c :: rest =>
    let answer := s.answerBy rule c
    (life.next s c answer).along rule answer.result.2 rest

end Life

/-- The instructions are the first ones of the program's run, in its order. -/
def Traces (p : Program) (start : Machine) (done : List (Program × Machine)) : Prop :=
  ∀ k q m, done[k]? = some (q, m) → q = p ∧ stateAt p start k = some m

/-- What a session that waits for the state with number `n` may reply to a request to go on, where
`done` are all instructions that have begun in it, those of the request included. -/
inductive Tells (p : Program) (start : Machine) (n : Nat) (done : List (Program × Machine))
    (events : List Event) : Request → Reply → Prop
  | state {r : Request} {m : Machine} (reached : stateAt p start done.length = some m)
      (later : n ≤ done.length) : Tells p start n done events r (.ok (some m))
  | stopped {r : Request} (stopped : .stop ∈ events) : Tells p start n done events r (.ok none)
  | past {r : Request} {fuel : Nat} {o : Machine.Outcome} {m : Machine}
      (ran : Machine.run p fuel start = (o, m)) (settled : o ≠ .outOfFuel) :
      Tells p start n done events r (.ok none)
  | failed {r : Request} {fuel : Nat} {f : Machine.Failure} {m : Machine}
      (ran : Machine.run p fuel start = (.failed f, m)) :
      Tells p start n done events r (.error (.program f))
  | starved {fuel : Nat} (used : n + fuel ≤ done.length + 1) :
      Tells p start n done events (.breakpoint fuel) (.error .outOfFuel)

theorem Traces.snoc {p : Program} {start m : Machine} {done : List (Program × Machine)}
    (traced : Traces p start done)
    (reached : stateAt p start done.length = some m) : Traces p start (done ++ [(p, m)]) := by
  intro k q m' found
  rcases Nat.lt_trichotomy k done.length with before | rfl | behind
  · rw [List.getElem?_append_left before] at found
    exact traced k q m' found
  · rw [List.getElem?_concat_length] at found
    cases found
    exact ⟨rfl, reached⟩
  · rw [List.getElem?_eq_none (by rwa [List.length_append])] at found
    cases found

/-- How a session is to answer a request to go on. One that lingers goes on with whatever walk was
left behind. -/
def Life.Allows (now : Session) (r : Request) (answer : Recorded (Option Reply × Session)) :
    Life → Prop
  | .closed => answer = ⟨(some (.error .inactive), now), []⟩
  | .opened p start done =>
    ∃ n reply, done.length = n - 1 ∧ answer.result.1 = some reply ∧
      Traces p start (done ++ begun answer.events) ∧
      Tells p start n (done ++ begun answer.events) answer.events r reply
  | .lingering =>
    (now.walk = none → answer = ⟨(some (.error .noWalk), now), []⟩) ∧
    ∀ w, now.walk = some w → answer.result.1 ≠ some (.error .inactive) ∧
      ∀ q ∈ begun answer.events, q.1 = w.program

/-- What is told one state later, after one more unit of fuel. -/
theorem Tells.earlier {p : Program} {start : Machine} {n fuel : Nat}
    {done : List (Program × Machine)} {first later : List Event} {reply : Reply}
    (told : Tells p start (n + 1) done later (.breakpoint fuel) reply) :
    Tells p start n done (first ++ later) (.breakpoint (fuel + 1)) reply := by
  cases told with
  | state reached ordered => exact .state reached (Nat.le_of_succ_le ordered)
  | stopped stopped => exact .stopped (List.mem_append_right _ stopped)
  | past ran settled => exact .past ran settled
  | failed ran => exact .failed ran
  | starved used => exact .starved (by omega)

namespace Session

/-- The session if no write stopped it. -/
def silenced (s : Session) : Session := { s with stopOn := none }

/-- A walk through the program loaded last that waits for the state with number `n`. -/
structure Progress (p : Program) (start : Machine) (done : List (Program × Machine)) (n : Nat)
    (w : Walk) (s : Session) : Prop where
  count : done.length = n - 1
  traced : Traces p start done
  latest : w.latest = true
  standing : Standing p start n w s.silenced

/-- A walk that has failed in a session that is still open. -/
structure Broken (p : Program) (start : Machine) (done : List (Program × Machine)) (w : Walk)
    (s : Session) : Prop where
  traced : Traces p start done
  active : s.active = some true
  ended : ∃ f, Ended p start (.failed f) w s

def Opens (p : Program) (start : Machine) (done : List (Program × Machine)) (s : Session) : Prop :=
  ∃ w, s.walk = some w ∧ ((∃ n, Progress p start done n w s) ∨ Broken p start done w s)

/-- How far a walk gets that is resumed while the session is open for its program. -/
inductive Goes (p : Program) (start : Machine) (done : List (Program × Machine)) (n : Nat) :
    Recorded (Resumed × Walk × Session) → Prop
  | stopped {w : Walk} {s : Session} {events : List Event} (stopped : .stop ∈ events) :
      Goes p start done n ⟨(.over, w, s), events⟩
  | finished {w : Walk} {s : Session} {events : List Event} (ended : Ended p start .finished w s) :
      Goes p start done n ⟨(.over, w, s), events⟩
  | failed {w : Walk} {s : Session} {f : Machine.Failure} {events : List Event}
      (broken : Broken p start (done ++ begun events) w s) (ended : Ended p start (.failed f) w s) :
      Goes p start done n ⟨(.failed f, w, s), events⟩
  | paused {w : Walk} {s : Session} {events : List Event}
      (reached : stateAt p start n = some w.machine) (more : (p.fetch? w.machine).isSome)
      (progress : Progress p start (done ++ begun events) (n + 1) w s) :
      Goes p start done n ⟨(.paused, w, s), events⟩

/-- The answer of an open session to a request to go on. -/
structure Steps (p : Program) (start : Machine) (done : List (Program × Machine)) (n : Nat)
    (r : Request) (x : Recorded (Reply × Session)) : Prop where
  traced : Traces p start (done ++ begun x.events)
  told : Tells p start n (done ++ begun x.events) x.events r x.result.1
  stays : .stop ∉ x.events → x.result.1 ≠ .ok none →
    Opens p start (done ++ begun x.events) x.result.2

variable {rule : StopRule} {p : Program} {start : Machine}
  {done : List (Program × Machine)} {n : Nat} {w : Walk} {s : Session}

theorem settle_kept (w : Walk) (m : Machine) :
    (Walk.settle w m).2.program = w.program ∧ (Walk.settle w m).2.latest = w.latest := by
  unfold Walk.settle
  split <;> exact ⟨rfl, rfl⟩

theorem resumeBy_kept (rule : StopRule) (w : Walk) (s : Session) :
    (resumeBy rule w s).result.2.1.program = w.program ∧
      (resumeBy rule w s).result.2.1.latest = w.latest := by
  have resumption := resumeBy_resumption rule w s
  generalize resumeBy rule w s = resumed at resumption ⊢
  cases resumption with
  | past => exact ⟨rfl, rfl⟩
  | fresh => exact settle_kept w _
  | ended => exact ⟨rfl, rfl⟩
  | interrupted => exact ⟨rfl, rfl⟩
  | failed => exact ⟨rfl, rfl⟩
  | next => exact settle_kept w _
  | @stopped m w' stage stepped disabled =>
    obtain ⟨program, latest⟩ := settle_kept w' m
    rw [program, latest, disabled]
    split <;> exact ⟨rfl, rfl⟩

theorem resumeBy_active (unstopped : .stop ∉ (resumeBy rule w s).events) :
    (resumeBy rule w s).result.2.2.active = s.active := by
  have resumption := resumeBy_resumption rule w s
  generalize resumeBy rule w s = resumed at resumption unstopped ⊢
  cases resumption with
  | past => rfl
  | fresh => rfl
  | ended => rfl
  | interrupted => rfl
  | failed => rfl
  | next => rfl
  | stopped => exact absurd (by simp) unstopped

/-- Resumed and not stopped, a walk gets as far as in a session that nothing stops. -/
theorem resumeBy_unstopped (unstopped : .stop ∉ (resumeBy rule w s).events) :
    resume w s.silenced = ((resumeBy rule w s).result.1, (resumeBy rule w s).result.2.1,
      (resumeBy rule w s).result.2.2.silenced) := by
  have attached : s.silenced.attach w.machine = s.attach w.machine := rfl
  have resumption := resumeBy_resumption rule w s
  generalize resumeBy rule w s = resumed at resumption unstopped ⊢
  cases resumption with
  | past stage => simp only [resume, stage]
  | fresh stage => simp only [resume, stage, attached]
  | ended stage stepped => simp only [resume, stage, attached, stepped]
  | interrupted stage stepped =>
    simp only [resume, stage, attached, stepped]
    rfl
  | failed stage stepped =>
    simp only [resume, stage, attached, stepped]
    rfl
  | @next m stage stepped =>
    have silent : s.silenced.stopsAt (s.attach w.machine) m = false := stopsAt_unstopped rfl ..
    simp only [resume, stage, attached, stepped, silent, Bool.false_eq_true, ↓reduceIte,
      Bool.false_and]
    rfl
  | stopped => exact absurd (by simp) unstopped

/-- A stop disables the walk of the program loaded last. -/
theorem resumeBy_stopped (latest : w.latest = true) (stopped : .stop ∈ (resumeBy rule w s).events) :
    (resumeBy rule w s).result.1 = .over := by
  have resumption := resumeBy_resumption rule w s
  generalize resumeBy rule w s = resumed at resumption stopped ⊢
  cases resumption with
  | past => rfl
  | fresh => cases stopped
  | ended => rfl
  | interrupted => rfl
  | failed => simp at stopped
  | next => simp at stopped
  | stopped _ _ disabled =>
    rw [if_pos latest] at disabled
    rw [disabled]
    rfl

/-- The instruction at which a walk pauses is the only one that begins when it is resumed. -/
theorem resumeBy_begun (rule : StopRule) (w : Walk) (s : Session) :
    (begun (resumeBy rule w s).events = [] ∧
      (w.stage = .paused → w.program.fetch? (s.attach w.machine) = none)) ∨
    (begun (resumeBy rule w s).events = [(w.program, s.attach w.machine)] ∧ w.stage = .paused) := by
  have resumption := resumeBy_resumption rule w s
  generalize resumeBy rule w s = resumed at resumption ⊢
  cases resumption with
  | past stage => exact .inl ⟨rfl, fun paused => by rw [stage] at paused; cases paused⟩
  | fresh stage => exact .inl ⟨rfl, fun paused => by rw [stage] at paused; cases paused⟩
  | ended _ stepped => exact .inl ⟨rfl, fun _ => Machine.step_ended.mp stepped⟩
  | interrupted stage => exact .inr ⟨rfl, stage⟩
  | failed stage => exact .inr ⟨rfl, stage⟩
  | next stage => exact .inr ⟨rfl, stage⟩
  | stopped stage => exact .inr ⟨rfl, stage⟩

theorem Progress.begins (progress : Progress p start done n w s) (rule : StopRule) :
    (n = 0 ∧ begun (resumeBy rule w s).events = []) ∨
    ∃ k m, n = k + 1 ∧ stateAt p start k = some m ∧ begun (resumeBy rule w s).events =
      [(p, m)] := by
  have walked : w.program = p := progress.standing.walked
  have awaits : Awaits p start n w.stage (s.attach w.machine) := progress.standing.awaits
  have began := resumeBy_begun rule w s
  rw [walked] at began
  generalize s.attach w.machine = m, w.stage = stage at awaits began
  cases awaits with
  | fresh =>
    obtain ⟨nothing, -⟩ | ⟨-, paused⟩ := began
    · exact .inl ⟨rfl, nothing⟩
    · cases paused
  | paused reached more =>
    obtain ⟨-, ended⟩ | ⟨one, -⟩ := began
    · rw [ended rfl] at more
      cases more
    · exact .inr ⟨_, m, rfl, reached, one⟩

theorem Progress.traces (progress : Progress p start done n w s) (rule : StopRule) :
    Traces p start (done ++ begun (resumeBy rule w s).events) ∧
      (done ++ begun (resumeBy rule w s).events).length = n := by
  have count := progress.count
  rcases progress.begins rule with ⟨rfl, nothing⟩ | ⟨k, m, rfl, reached, one⟩
  · rw [nothing, List.append_nil]
    exact ⟨progress.traced, count⟩
  · rw [one]
    rw [Nat.add_sub_cancel] at count
    rw [← count] at reached
    exact ⟨progress.traced.snoc reached, by simp [count]⟩

theorem resumeBy_goes (progress : Progress p start done n w s) (rule : StopRule) :
    Goes p start done n (resumeBy rule w s) := by
  obtain ⟨traced, count⟩ := progress.traces rule
  have latest := (resumeBy_kept rule w s).2.trans progress.latest
  have resumed := resume_resumes progress.standing
  have disabled : .stop ∈ (resumeBy rule w s).events → _ := resumeBy_stopped progress.latest
  have same : .stop ∉ (resumeBy rule w s).events → _ := resumeBy_unstopped
  have stays : .stop ∉ (resumeBy rule w s).events → _ := resumeBy_active
  generalize resumeBy rule w s = x at traced count latest disabled same stays ⊢
  obtain ⟨⟨r, w', s'⟩, events⟩ := x
  by_cases stopped : .stop ∈ events
  · cases disabled stopped
    exact .stopped stopped
  · -- What is known of sessions that nothing stops then holds of this one.
    rw [same stopped] at resumed
    have active := (stays stopped).trans progress.standing.active
    dsimp only at resumed active count
    generalize quiet : s'.silenced = quieted at resumed
    cases resumed with
    | paused reached more standing =>
      exact .paused reached more ⟨count, traced, latest, quiet ▸ standing⟩
    | finished ended _ =>
      subst quiet
      exact .finished ⟨ended.stage, ended.run, ended.attached, ended.walking⟩
    | failed ended _ =>
      subst quiet
      have ended : Ended p start _ w' s' := ⟨ended.stage, ended.run, ended.attached, ended.walking⟩
      exact .failed ⟨traced, active, _, ended⟩ ended

theorem Progress.keep (progress : Progress p start done n w s) : Opens p start done (s.keep w) := by
  obtain ⟨count, traced, latest, standing⟩ := progress
  obtain ⟨w', walk, kept⟩ := standing.keep
  cases Option.some.inj (walk.symm.trans (keep_walk standing.walking w))
  exact ⟨w, walk, .inl ⟨n, count, traced, latest, kept⟩⟩

theorem Broken.keep (broken : Broken p start done w s) : Opens p start done (s.keep w) := by
  obtain ⟨traced, active, f, ended⟩ := broken
  obtain ⟨w', walk, kept⟩ := ended.keep s.active
  cases Option.some.inj (walk.symm.trans (keep_walk ended.walking w))
  exact ⟨w, walk, .inr ⟨traced, active, f, kept⟩⟩

theorem Goes.told {x : Recorded (Resumed × Walk × Session)} (goes : Goes p start done n x)
    (count : (done ++ begun x.events).length = n) (r : Request) :
    Tells p start n (done ++ begun x.events) x.events r (lineReply x.result).1 := by
  cases goes with
  | stopped stopped => exact .stopped stopped
  | finished ended =>
    obtain ⟨fuel, ran⟩ := ended.run
    exact .past ran nofun
  | failed _ ended =>
    obtain ⟨fuel, ran⟩ := ended.run
    exact .failed ran
  | paused reached => exact .state (count ▸ reached) (Nat.le_of_eq count.symm)

theorem Goes.stays {x : Recorded (Resumed × Walk × Session)} (goes : Goes p start done n x)
    (unstopped : .stop ∉ x.events) (goesOn : (lineReply x.result).1 ≠ .ok none) :
    Opens p start (done ++ begun x.events) (lineReply x.result).2 := by
  cases goes with
  | stopped stopped => exact absurd stopped unstopped
  | finished ended => exact absurd rfl goesOn
  | failed broken => exact broken.keep
  | paused _ _ progress => exact progress.keep

theorem Progress.line (progress : Progress p start done n w s) (rule : StopRule) :
    Steps p start done n .line ((resumeBy rule w s).map lineReply) := by
  have goes := resumeBy_goes progress rule
  obtain ⟨traced, count⟩ := progress.traces rule
  exact ⟨traced, goes.told count .line, goes.stays⟩

theorem Progress.breakpoint (progress : Progress p start done n w s) (rule : StopRule)
    (fuel : Nat) :
    Steps p start done n (.breakpoint fuel) (walkBy rule fuel w s) := by
  -- Each unit of fuel leads to one more state, and what began on the way is done when the walk goes
  -- on.
  induction fuel generalizing done n w s with
  | zero =>
    have count := progress.count
    have nothing : done ++ begun [] = done := List.append_nil done
    refine ⟨nothing.symm ▸ progress.traced, nothing.symm ▸ .starved (by omega), fun _ _ => ?_⟩
    exact nothing.symm ▸ progress.keep
  | succ fuel ih =>
    have goes := resumeBy_goes progress rule
    have walks := walkBy_walksOn rule fuel w s
    obtain ⟨traced, count⟩ := progress.traces rule
    generalize resumeBy rule w s = resumed, walkBy rule (fuel + 1) w s = walked
      at goes walks traced count ⊢
    cases walks with
    | past => exact ⟨traced, goes.told count _, fun _ goesOn => absurd rfl goesOn⟩
    | failed => exact ⟨traced, goes.told count _, goes.stays⟩
    | shown => exact ⟨traced, goes.told count _, goes.stays⟩
    -- A walk of the program loaded last never pauses in a closed session or off its own lines.
    | closed inactive =>
      obtain _ | _ | _ | ⟨-, -, progress⟩ := goes
      exact absurd progress.standing.active inactive
    | @unplaced w s events active unplaced =>
      obtain _ | _ | _ | ⟨-, more, progress⟩ := goes
      obtain ⟨line, placed⟩ := lineAt?_of_fetch? more
      have loaded : s.program = some p := progress.standing.loaded
      rw [loaded, Option.bind_some, placed] at unplaced
      cases unplaced
    | further =>
      obtain _ | _ | _ | ⟨-, -, progress⟩ := goes
      obtain ⟨traced, told, stays⟩ := ih progress
      rw [List.append_assoc, ← begun_append] at traced told stays
      refine ⟨traced, told.earlier, fun unstopped => stays fun stopped => ?_⟩
      exact unstopped (List.mem_append_right _ stopped)

/-- Resumed after a failure, a walk has ended. -/
theorem Broken.resumeBy (broken : Broken p start done w s) (rule : StopRule) :
    resumeBy rule w s = ⟨(.over, w, s), []⟩ := by
  obtain ⟨f, ended⟩ := broken.ended
  rw [Session.resumeBy, ended.stage]
  rfl

theorem Broken.line (broken : Broken p start done w s) (rule : StopRule) :
    Steps p start done (done.length + 1) .line ((Session.resumeBy rule w s).map lineReply) := by
  obtain ⟨f, ended⟩ := broken.ended
  obtain ⟨fuel, ran⟩ := ended.run
  have nothing : done ++ begun [] = done := List.append_nil done
  rw [broken.resumeBy rule]
  exact ⟨nothing.symm ▸ broken.traced, .past ran nofun, fun _ goesOn => absurd rfl goesOn⟩

theorem Broken.breakpoint (broken : Broken p start done w s) (rule : StopRule) (fuel : Nat) :
    Steps p start done (done.length + 1) (.breakpoint fuel) (walkBy rule fuel w s) := by
  have nothing : done ++ begun [] = done := List.append_nil done
  cases fuel with
  | zero =>
    refine ⟨nothing.symm ▸ broken.traced, nothing.symm ▸ .starved (Nat.le_refl _), fun _ _ => ?_⟩
    exact nothing.symm ▸ broken.keep
  | succ fuel =>
    obtain ⟨f, ended⟩ := broken.ended
    obtain ⟨enough, ran⟩ := ended.run
    have walks := walkBy_walksOn rule fuel w s
    rw [broken.resumeBy rule] at walks
    generalize walkBy rule (fuel + 1) w s = walked at walks ⊢
    cases walks with
    | past => exact ⟨nothing.symm ▸ broken.traced, .past ran nofun,
        fun _ goesOn => absurd rfl goesOn⟩

theorem onWalk_of_walk (active : s.active = some true) (walk : s.walk = some w)
    (go : Walk → Recorded (Reply × Session)) : s.onWalk go = go w := by
  simp only [onWalk, active, ne_eq, not_true_eq_false, ↓reduceIte, walk]

theorem Opens.active (opens : Opens p start done s) : s.active = some true := by
  obtain ⟨w, walk, ⟨n, progress⟩ | broken⟩ := opens
  · exact progress.standing.active
  · exact broken.active

theorem Opens.line (opens : Opens p start done s) (rule : StopRule) :
    ∃ n, done.length = n - 1 ∧ Steps p start done n .line (nextLineBy rule s) := by
  have active := opens.active
  obtain ⟨w, walk, progress⟩ := opens
  rw [nextLineBy, onWalk_of_walk active walk]
  obtain ⟨n, progress⟩ | broken := progress
  · exact ⟨n, progress.count, progress.line rule⟩
  · exact ⟨_, rfl, broken.line rule⟩

theorem Opens.breakpoint (opens : Opens p start done s) (rule : StopRule) (fuel : Nat) :
    ∃ n, done.length = n - 1 ∧
      Steps p start done n (.breakpoint fuel) (nextBreakpointBy rule fuel s) := by
  have active := opens.active
  obtain ⟨w, walk, progress⟩ := opens
  rw [nextBreakpointBy, onWalk_of_walk active walk]
  obtain ⟨n, progress⟩ | broken := progress
  · exact ⟨n, progress.count, progress.breakpoint rule fuel⟩
  · exact ⟨_, rfl, broken.breakpoint rule fuel⟩

/-- A request to go on closes the session when it comes to the end, and else only if it is
stopped. -/
structure Closes (s : Session) (x : Recorded (Reply × Session)) : Prop where
  closes : x.result.1 = .ok none → x.result.2.active ≠ some true
  keeps : .stop ∉ x.events → x.result.1 ≠ .ok none → x.result.2.active = s.active

theorem walkBy_closes (rule : StopRule) (fuel : Nat) (w : Walk) (s : Session) :
    Closes s (walkBy rule fuel w s) := by
  induction fuel generalizing w s with
  | zero => exact ⟨nofun, fun _ _ => rfl⟩
  | succ fuel ih =>
    have stays : .stop ∉ (resumeBy rule w s).events → _ := resumeBy_active
    have walks := walkBy_walksOn rule fuel w s
    generalize resumeBy rule w s = resumed, walkBy rule (fuel + 1) w s = walked at stays walks ⊢
    cases walks with
    | past => exact ⟨nofun, fun _ goesOn => absurd rfl goesOn⟩
    | failed => exact ⟨nofun, fun unstopped _ => stays unstopped⟩
    | closed inactive => exact ⟨fun _ => inactive, fun _ goesOn => absurd rfl goesOn⟩
    | unplaced => exact ⟨nofun, fun unstopped _ => stays unstopped⟩
    | shown => exact ⟨nofun, fun unstopped _ => stays unstopped⟩
    | @further w s events active =>
      obtain ⟨closes, keeps⟩ := ih w s
      refine ⟨closes, fun unstopped goesOn => ?_⟩
      obtain ⟨first, later⟩ := not_or.mp (mt List.mem_append.mpr unstopped)
      exact (keeps later goesOn).trans (stays first)

theorem line_closes (rule : StopRule) (w : Walk) (s : Session) :
    Closes s ((resumeBy rule w s).map lineReply) := by
  have stays : .stop ∉ (resumeBy rule w s).events → _ := resumeBy_active
  generalize resumeBy rule w s = resumed at stays ⊢
  obtain ⟨⟨_ | _ | f, w, s⟩, events⟩ := resumed
  · exact ⟨nofun, fun unstopped _ => stays unstopped⟩
  · exact ⟨nofun, fun _ goesOn => absurd rfl goesOn⟩
  · exact ⟨nofun, fun unstopped _ => stays unstopped⟩

theorem onWalk_closes {go : Walk → Recorded (Reply × Session)} (closes : ∀ w, Closes s (go w)) :
    Closes s (s.onWalk go) := by
  unfold onWalk
  split
  · exact ⟨nofun, fun _ _ => rfl⟩
  · cases s.walk with
    | none => exact ⟨nofun, fun _ _ => rfl⟩
    | some w => exact closes w

theorem nextLineBy_closes (rule : StopRule) (s : Session) : Closes s (nextLineBy rule s) :=
  onWalk_closes fun w => line_closes rule w s

theorem nextBreakpointBy_closes (rule : StopRule) (fuel : Nat) (s : Session) :
    Closes s (nextBreakpointBy rule fuel s) :=
  onWalk_closes fun w => walkBy_closes rule fuel w s

theorem runLoopBy_active {fuel : Nat} {m : Machine}
    (unstopped : .stop ∉ (runLoopBy rule p fuel m s).events) :
    (runLoopBy rule p fuel m s).result.2.active = s.active := by
  induction fuel generalizing m with
  | zero => rfl
  | succ fuel ih =>
    unfold runLoopBy at unstopped ⊢
    rw [Recorded.events_bind] at unstopped
    rw [Recorded.result_bind]
    have unstopped := mt (List.mem_append_right _) unstopped
    cases stepped : (Recorded.carryOut p m).result with
    | ended => rfl
    | interrupted m' => rfl
    | failed f m' => rfl
    | next m' =>
      simp only [stepped] at unstopped
      split at unstopped
      · exact absurd List.mem_cons_self unstopped
      · rename_i goes
        simp only [goes, Bool.false_eq_true, ↓reduceIte]
        exact ih unstopped

theorem opened_opens (s : Session) (p : Program) (breakpoints : List Int) :
    Opens p (s.attach (p.start "" none)) [] (s.opened p breakpoints) :=
  ⟨_, rfl, .inl ⟨0, rfl, nofun, rfl, rfl, rfl, rfl, rfl, rfl, rfl, .fresh⟩⟩

/-- A session of which the life cycle tells the truth. -/
inductive Fits : Life → Session → Prop
  | closed {s : Session} (inactive : s.active ≠ some true) : Fits .closed s
  | opened {p : Program} {start : Machine} {done : List (Program × Machine)} {s : Session}
      (opens : Opens p start done s) : Fits (.opened p start done) s
  | lingering {s : Session} (active : s.active = some true) : Fits .lingering s

variable {life : Life}

theorem Opens.edit (opens : Opens p start done s) (e : Edit) : Opens p start done (s.edit e) := by
  obtain ⟨lines, same⟩ := edit_breakpoints s e
  obtain ⟨w, walk, ⟨n, count, traced, latest, standing⟩ | ⟨traced, active, f, ended⟩⟩ := opens
  · obtain ⟨walked, enabled, loaded, active, unstopped, walking, awaits⟩ := standing
    rw [same]
    exact ⟨w, walk, .inl ⟨n, count, traced, latest, walked, enabled, loaded, active, rfl,
      walking, awaits⟩⟩
  · obtain ⟨stage, run, attached, walking⟩ := ended
    rw [same]
    exact ⟨w, walk, .inr ⟨traced, active, f, stage, run, attached, walking⟩⟩

theorem Fits.edit (fits : Fits life s) (e : Edit) : Fits life (s.edit e) := by
  obtain ⟨lines, same⟩ := edit_breakpoints s e
  cases fits with
  | closed inactive => exact .closed (by rw [same]; exact inactive)
  | opened opens => exact .opened (opens.edit e)
  | lingering active => exact .lingering (by rw [same]; exact active)

theorem Fits.endedBy {reply : Reply} (closes : reply = .ok none → s.active ≠ some true)
    (fits : reply ≠ .ok none → Fits life s) : Fits (life.endedBy (some reply)) s := by
  by_cases ended : reply = .ok none
  · cases ended
    exact .closed (closes rfl)
  · have same : life.endedBy (some reply) = life := by
      unfold Life.endedBy
      split
      · rename_i same
        exact absurd (Option.some.inj same) ended
      · rfl
    exact same.symm ▸ fits ended

theorem Fits.step {x : Recorded (Reply × Session)} {r : Request} (fits : Fits life s)
    (closes : Closes s x)
    (steps : ∀ p start done, Opens p start done s → ∃ n, done.length = n - 1 ∧
      Steps p start done n r x)
    (unstopped : .stop ∉ x.events) :
    Fits (life.unstopped s (x.map (Prod.map some id)) (.ask r)) x.result.2 := by
  refine Fits.endedBy closes.closes fun goesOn => ?_
  have active := closes.keeps unstopped goesOn
  cases fits with
  | closed inactive => exact .closed (active ▸ inactive)
  | lingering still => exact .lingering (active.trans still)
  | opened opens =>
    obtain ⟨n, -, steps⟩ := steps _ _ _ opens
    exact .opened (steps.stays unstopped goesOn)

theorem Fits.next (fits : Fits life s) (rule : StopRule) (c : Call) :
    Fits (life.next s c (answerBy rule s c)) (answerBy rule s c).result.2 := by
  have leaves := answerBy_leaves rule s c
  by_cases stopped : .stop ∈ (answerBy rule s c).events
  · rw [Life.next, if_pos stopped]
    exact .closed fun active => leaves.not_stopped active stopped
  · rw [Life.next, if_neg stopped]
    cases c with
    | stop => exact absurd List.mem_cons_self stopped
    | run fuel code =>
      cases loaded : Program.load code with
      | error f =>
        simp only [Life.unstopped, loaded, answerBy, runBy_error loaded]
        exact fits
      | ok p =>
        simp only [Life.unstopped, loaded]
        rw [answerBy, runBy_ok loaded] at stopped ⊢
        exact .lingering (runLoopBy_active (mt (List.mem_append_right _) stopped))
    | debug fuel code breakpoints =>
      cases loaded : Program.load code with
      | error f =>
        simp only [Life.unstopped, loaded, answerBy, debugBy_error loaded]
        exact fits
      | ok p =>
        simp only [Life.unstopped, loaded]
        rw [answerBy, debugBy_ok loaded] at stopped ⊢
        -- Nothing of what came before is left in a session that opens.
        have closes := nextBreakpointBy_closes rule fuel (s.opened p breakpoints)
        obtain ⟨n, -, steps⟩ := (opened_opens s p breakpoints).breakpoint rule fuel
        exact .endedBy closes.closes fun goesOn =>
          .opened (steps.stays (mt (List.mem_append_right _) stopped) goesOn)
    | ask r =>
      cases r with
      | line => exact fits.step (nextLineBy_closes rule s) (fun _ _ _ opens =>
          opens.line rule) stopped
      | breakpoint fuel =>
        exact fits.step (nextBreakpointBy_closes rule fuel s)
          (fun _ _ _ opens => opens.breakpoint rule fuel) stopped
      | edit e =>
        have same : life.goOn (begun []) = life := by
          cases life with
          | opened p start done => exact congrArg (Life.opened p start) (List.append_nil done)
          | closed => rfl
          | lingering => rfl
        have kept := fits.edit e
        rw [← same] at kept
        exact kept

/-- However a session is used, its life cycle tells the truth of it. -/
theorem Fits.along (fits : Fits life s) (rule : StopRule) (calls : List Call) :
    Fits (life.along rule s calls) (answerAllBy rule s calls).result.2 := by
  induction calls generalizing life s with
  | nil => exact fits
  | cons c rest ih => exact ih (fits.next rule c)

theorem resumeBy_own (rule : StopRule) (w : Walk) (s : Session) :
    ∀ q ∈ begun (resumeBy rule w s).events, q.1 = w.program := by
  intro q member
  obtain ⟨nothing, -⟩ | ⟨one, -⟩ := resumeBy_begun rule w s
  · rw [nothing] at member
    cases member
  · rw [one] at member
    cases List.mem_singleton.mp member
    rfl

/-- A walk carries out instructions of its own program only, and it is taken up. -/
theorem walkBy_own (rule : StopRule) (fuel : Nat) (w : Walk) (s : Session) :
    (walkBy rule fuel w s).result.1 ≠ .error .inactive ∧
      ∀ q ∈ begun (walkBy rule fuel w s).events, q.1 = w.program := by
  induction fuel generalizing w s with
  | zero => exact ⟨nofun, nofun⟩
  | succ fuel ih =>
    have own := resumeBy_own rule w s
    have program := (resumeBy_kept rule w s).1
    have walks := walkBy_walksOn rule fuel w s
    generalize resumeBy rule w s = resumed, walkBy rule (fuel + 1) w s = walked
      at own program walks ⊢
    cases walks with
    | past => exact ⟨nofun, own⟩
    | failed => exact ⟨nofun, own⟩
    | closed => exact ⟨nofun, own⟩
    | unplaced => exact ⟨nofun, own⟩
    | shown => exact ⟨nofun, own⟩
    | @further w' s' events active =>
      obtain ⟨taken, later⟩ := ih w' s'
      refine ⟨taken, fun q member => ?_⟩
      rw [begun_append] at member
      rcases List.mem_append.mp member with member | member
      · exact own q member
      · exact (later q member).trans program

theorem line_own (rule : StopRule) (w : Walk) (s : Session) :
    ((resumeBy rule w s).map lineReply).result.1 ≠ .error .inactive ∧
      ∀ q ∈ begun ((resumeBy rule w s).map lineReply).events, q.1 = w.program := by
  refine ⟨?_, resumeBy_own rule w s⟩
  generalize resumeBy rule w s = resumed
  obtain ⟨⟨_ | _ | f, w, s⟩, events⟩ := resumed <;> exact nofun

theorem Fits.allows {r : Request} {go : Walk → Recorded (Reply × Session)} (fits : Fits life s)
    (steps : ∀ p start done, Opens p start done s →
      ∃ n, done.length = n - 1 ∧ Steps p start done n r (s.onWalk go))
    (own : ∀ w, (go w).result.1 ≠ .error .inactive ∧ ∀ q ∈ begun (go w).events, q.1 = w.program) :
    life.Allows s r ((s.onWalk go).map (Prod.map some id)) := by
  cases fits with
  | closed inactive =>
    rw [onWalk, if_pos inactive]
    rfl
  | opened opens =>
    obtain ⟨n, count, traced, told, -⟩ := steps _ _ _ opens
    exact ⟨n, _, count, rfl, traced, told⟩
  | lingering active =>
    constructor
    · intro walk
      simp only [onWalk, active, ne_eq, not_true_eq_false, ↓reduceIte, walk]
      rfl
    · intro w walk
      obtain ⟨taken, own⟩ := own w
      rw [onWalk_of_walk active walk]
      exact ⟨fun same => taken (Option.some.inj same), own⟩

/-- Whatever a session is asked from its beginning on, and whichever writes stop it: a request to go
on is refused exactly when the session is closed, and while it is open for a program the request
carries out the next instructions of that program's run. Only after another program has been run
does a request reach a walk from before, or none. -/
theorem steps_follow_life (rule : StopRule) (s : Session) (fresh : s.active ≠ some true)
    (calls : List Call) (r : Request) (steps : ∀ e, r ≠ .edit e) :
    let now := (answerAllBy rule s calls).result.2
    (Life.closed.along rule s calls).Allows now r (performBy rule now r) ∧
    (answerAllBy stopsAt s calls).result = s.answerAll calls ∧
    (performBy stopsAt now r).result = now.perform r := by
  intro now
  have fits := (Fits.closed fresh).along rule calls
  refine ⟨?_, answerAllBy_result s calls, performBy_result now r⟩
  cases r with
  | line =>
    exact fits.allows (fun _ _ _ opens => opens.line rule) fun w => line_own rule w now
  | breakpoint fuel =>
    exact fits.allows (fun _ _ _ opens => opens.breakpoint rule fuel) fun w =>
      walkBy_own rule fuel w now
  | edit e => exact absurd rfl (steps e)

def labels : Program where
  instructions :=
    #[⟨.label, [.label "a"], 2, "LABEL a"⟩,
      ⟨.label, [.label "b"], 3, "LABEL b"⟩,
      ⟨.label, [.label "c"], 4, "LABEL c"⟩,
      ⟨.write, [.constant (.str "a")], 5, "WRITE string@a"⟩]

def labelsCode : String := ".IFJcode17\nLABEL a\nLABEL b\nLABEL c\nWRITE string@a\n"

def writeCode : String := ".IFJcode17\nWRITE string@b\n"

/-- Debugged anew after a stop and a run, to the third label. -/
def labelsCalls : List Call :=
  [.debug 9 labelsCode [3], .stop, .run 9 writeCode, .debug 9 labelsCode [4]]

def stopsOnA : Session := { stopOn := some "a" }

def labelsNow : Session := (answerAllBy stopsAt stopsOnA labelsCalls).result.2

def labelsStart : Machine := { labels.start "" none with written := [(.out, "b")] }

def labelsDone : List (Program × Machine) :=
  [(labels, labelsStart), (labels, (stateAt labels labelsStart 1).getD default)]

/-- Two instructions have begun. The walk goes on to the write, which stops the session. -/
theorem labels_walked :
    stopsOnA.active ≠ some true ∧
    Life.closed.along stopsAt stopsOnA labelsCalls = .opened labels labelsStart labelsDone ∧
    .stop ∈ (performBy stopsAt labelsNow (.breakpoint 9)).events ∧
    (Life.opened labels labelsStart labelsDone).Allows labelsNow (.breakpoint 9)
      (performBy stopsAt labelsNow (.breakpoint 9)) := by
  have fresh : stopsOnA.active ≠ some true := nofun
  have life : Life.closed.along stopsAt stopsOnA labelsCalls =
      .opened labels labelsStart labelsDone := by
    decide +kernel
  have stopped : .stop ∈ (performBy stopsAt labelsNow (.breakpoint 9)).events := by decide +kernel
  have allowed := (steps_follow_life stopsAt stopsOnA fresh labelsCalls (.breakpoint 9) nofun).1
  rw [life] at allowed
  exact ⟨fresh, life, stopped, allowed⟩

/-- A program is run, another one is debugged, and then the first is run again. -/
def aftermath : List Call :=
  [.run 9 writeCode, .ask .line, .debug 9 labelsCode [3], .run 9 writeCode, .ask .line,
    .ask (.breakpoint 9)]

/-- After a run no session is open, and still no request to go on is refused as such: there may be
no walk, an earlier program may go on, and its position may be none of the program that was run. -/
theorem run_leaves_session_unclosed :
    (({} : Session).answerAll aftermath).1.map (·.bind Reply.fault?) =
      [none, some .noWalk, none, none, none, some .position] ∧
    (begun (performBy stopsAt (({} : Session).answerAll (aftermath.take 4)).2 .line).events).map
        (·.1) =
      [labels] ∧
    ∀ k ∈ [1, 4, 5], Life.closed.along stopsAt {} (aftermath.take k) = .lingering := by
  refine ⟨?_, ?_, ?_⟩ <;> decide +kernel

end Session
end TacBench.Debug
