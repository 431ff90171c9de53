import TacBench.Proofs.CallView
import TacBench.Proofs.Causes

/-! What the worker of a session signals. Every command to run or to debug sends one report, of the
end, of an error or of the machine at a pause, or else a fault escapes and nothing is reported. Only
errors of the language are reported: a fault escapes exactly if the program fails with another one
or with one that cannot be put into words. -/
namespace TacBench

namespace Machine

variable {p : Program} {start m m' : Machine} {k n fuel : Nat} {f : Failure} {e : Error}
  {place : Code.Place} {line : Option String}

/-- An error about an index that cannot be put into words. -/
inductive Wordless : Fault → Prop
  | index {v i : Value} {e : Value.Fault} (refused : i.text = .error e ∨ v.text = .error e) :
      Wordless (.language (.badIndex v i))

/-- A failure that is an error of the language and has a message. -/
def Worded (f : Failure) : Prop := (∃ e, f.fault = .language e) ∧ ∃ text, f.message = .ok text

theorem message_or_wordless (e : Error) (place : Code.Place) (line : Option String) :
    (∃ text, e.message place line = .ok text) ∨ Wordless (.language e) := by
  cases e with
  | badIndex v i =>
    cases index : i.text with
    | error e => exact .inr (.index (.inl index))
    | ok shown =>
      cases text : v.text with
      | error e => exact .inr (.index (.inr text))
      | ok quoted =>
        simp only [Error.message, Error.cause, index, text]
        exact .inl ⟨_, rfl⟩
  | other text =>
    cases text with
    | none => exact .inl ⟨_, rfl⟩
    | some t =>
      simp only [Error.message]
      split
      · exact .inl ⟨_, rfl⟩
      · exact .inl ⟨_, rfl⟩
  | _ => exact .inl ⟨_, rfl⟩

theorem Wordless.message {text : Text} (wordless : Wordless (.language e)) :
    e.message place line ≠ .ok text := by
  cases wordless with
  | @index v i fault refused =>
    cases index : i.text with
    | error e =>
      simp only [Error.message, Error.cause, index]
      exact nofun
    | ok shown =>
      have refused : v.text = .error fault := refused.resolve_left (by rw [index]; nofun)
      simp only [Error.message, Error.cause, index, refused]
      exact nofun

/-- A loaded program fails without words exactly if the instruction has a foreign cause to stop, or
if the words for its error are missing. -/
theorem not_worded_iff {code : String} (loaded : Program.load code = .ok p)
    (stepped : step p m = .failed f m') :
    ∃ i, p.fetch? m = some i ∧
      (¬ Worded f ↔ Foreign m i.operands i.opcode f.fault ∨ Wordless f.fault) := by
  obtain ⟨i, fetched, explained⟩ := failure_explained loaded stepped
  refine ⟨i, fetched, ?_, ?_⟩
  · intro unworded
    rcases explained with ⟨e, language⟩ | foreign
    · rcases message_or_wordless e f.place f.line with ⟨text, said⟩ | wordless
      · have message : f.message = .ok text := by simp only [Failure.message, language, said]
        exact absurd ⟨⟨e, language⟩, text, message⟩ unworded
      · exact .inr (language ▸ wordless)
    · exact .inl foreign
  · rintro cause ⟨⟨e, language⟩, text, said⟩
    rcases cause with foreign | wordless
    · exact foreign.ne_language e language
    · rw [language] at wordless
      simp only [Failure.message, language] at said
      exact wordless.message said

/-- A run that uses up its fuel has a state for each unit of it. -/
theorem stateAt_of_outOfFuel (reached : stateAt p start n = some m)
    (starved : (run p fuel m).1 = .outOfFuel) :
    ∃ last, stateAt p start (n + fuel) = some last := by
  induction fuel generalizing n m with
  | zero => exact ⟨m, reached⟩
  | succ fuel ih =>
    unfold run at starved
    split at starved
    · cases starved
    · rename_i stepped
      rw [Nat.add_comm fuel, ← Nat.add_assoc]
      exact ih (stateAt_succ.mpr ⟨m, reached, stepped⟩) starved
    · cases starved
    · cases starved

end Machine

namespace Debug

open Machine (Worded)

variable {p : Program} {start m m' : Machine} {lines : Set Int}

/-- The run finishes, or it fails with words. -/
def EndsTold (p : Program) (start : Machine) : Prop :=
  Comes p start .finished ∨ ∃ f, Comes p start (.failed f) ∧ Worded f

/-- The run fails without words. -/
def EndsUntold (p : Program) (start : Machine) : Prop := ∃ f, Comes p start (.failed f) ∧ ¬ Worded f

/-- The walk pauses, or it does not and has an end with words. -/
def WalkTold (p : Program) (start : Machine) (lines : Set Int) : Prop :=
  (∃ k m, FirstMarked p start lines 0 k m) ∨ Unmarked p start lines 0 ∧ EndsTold p start

/-- The walk does not pause and has an end without words. -/
def WalkUntold (p : Program) (start : Machine) (lines : Set Int) : Prop :=
  Unmarked p start lines 0 ∧ EndsUntold p start

theorem EndsTold.not_untold (told : EndsTold p start) : ¬ EndsUntold p start := by
  rintro ⟨f, comes, unworded⟩
  rcases told with finished | ⟨f', failed, worded⟩
  · cases finished.unique nofun comes nofun
  · cases failed.unique nofun comes nofun
    exact unworded worded

theorem WalkTold.not_untold (told : WalkTold p start lines) : ¬ WalkUntold p start lines := by
  rintro ⟨unmarked, untold⟩
  rcases told with ⟨k, m, first⟩ | ⟨-, told⟩
  · exact first.not_unmarked unmarked
  · exact told.not_untold untold

/-- A program that is run has nowhere to pause. -/
theorem not_marked_empty : ¬ Marked p ∅ m := by
  rintro ⟨i, -, none⟩
  exact none

theorem unmarked_empty (p : Program) (start : Machine) : Unmarked p start ∅ 0 :=
  fun _ _ _ _ => not_marked_empty

theorem not_firstMarked_empty {n k : Nat} : ¬ FirstMarked p start ∅ n k m :=
  fun first => not_marked_empty first.marked

theorem walkTold_empty : WalkTold p start ∅ ↔ EndsTold p start := by
  simp only [WalkTold, not_firstMarked_empty, exists_false, unmarked_empty, true_and, false_or]

theorem walkUntold_empty : WalkUntold p start ∅ ↔ EndsUntold p start := by
  simp only [WalkUntold, unmarked_empty, true_and]

/-- Every unit of fuel has led past a state at which there is no pause. -/
def Passed (p : Program) (start : Machine) (lines : Set Int) (fuel : Nat) : Prop :=
  ∀ k < fuel, ∃ m, Machine.stateAt p start k = some m ∧ ¬ Marked p lines m

theorem comes_of_ends (ends : EndsTold p start ∨ EndsUntold p start) :
    ∃ o, Comes p start o ∧ o ≠ .outOfFuel := by
  rcases ends with (finished | ⟨f, failed, -⟩) | ⟨f, failed, -⟩
  · exact ⟨_, finished, nofun⟩
  · exact ⟨_, failed, nofun⟩
  · exact ⟨_, failed, nofun⟩

/-- A walk that comes to something does not pass states without end. -/
theorem walk_bounded (walk : WalkTold p start lines ∨ WalkUntold p start lines) :
    ∃ enough, ∀ fuel, enough ≤ fuel → ¬ Passed p start lines fuel := by
  have either : (∃ k m, FirstMarked p start lines 0 k m) ∨
      (EndsTold p start ∨ EndsUntold p start) := by
    rcases walk with (paused | ⟨-, told⟩) | ⟨-, untold⟩
    · exact .inl paused
    · exact .inr (.inl told)
    · exact .inr (.inr untold)
  rcases either with ⟨k, m, first⟩ | ends
  · refine ⟨k + 1, fun fuel more passed => ?_⟩
    obtain ⟨x, reached, unmarked⟩ := passed k more
    cases Option.some.inj (first.reached.symm.trans reached)
    exact unmarked first.marked
  · obtain ⟨o, comes, enough⟩ := comes_of_ends ends
    obtain ⟨bound, past⟩ := comes.bounded enough
    refine ⟨bound + 1, fun fuel more passed => ?_⟩
    obtain ⟨x, reached, -⟩ := passed bound more
    rw [past bound (Nat.le_refl _)] at reached
    cases reached

theorem passed_of_outOfFuel {fuel : Nat} (starved : (Machine.run p fuel start).1 = .outOfFuel) :
    Passed p start ∅ fuel := by
  obtain ⟨last, reached⟩ := Machine.stateAt_of_outOfFuel (n := 0) rfl starved
  intro k before
  obtain ⟨m, earlier⟩ := Machine.stateAt_of_le (Nat.zero_add fuel ▸ Nat.le_of_lt before) reached
  exact ⟨m, earlier, not_marked_empty⟩

namespace Session

variable {s : Session} {code : String}

/-- What running a program comes to, by the outcome of its run. -/
def ran : Machine.Outcome × Machine → Except Fault Machine
  | (.finished, m) => .ok m
  | (.failed f, _) => .error (.program f)
  | (.outOfFuel, _) => .error .outOfFuel

theorem runLoop_ran (unstopped : s.stopOn = none) (fuel : Nat) (m : Machine) :
    (runLoop p fuel m s).1 = ran (Machine.run p fuel m) := by
  induction fuel generalizing m with
  | zero => rfl
  | succ fuel ih =>
    unfold runLoop Machine.run
    cases stepped : Machine.step p m with
    | ended => rfl
    | interrupted m' => rfl
    | failed f m' => rfl
    | next m' =>
      simp only [stopsAt_unstopped unstopped, Bool.false_eq_true, ↓reduceIte]
      exact ih m'

theorem run_ran (loaded : Program.load code = .ok p) (unstopped : s.stopOn = none) (fuel : Nat) :
    (s.run fuel code).1 = (ran (Machine.run p fuel (s.attach (p.start "" none)))).map some := by
  have unstopped' : (s.withProgram p).stopOn = none := unstopped
  simp only [run, loaded, runLoop_ran unstopped']
  rfl

theorem debug_verdict (loaded : Program.load code = .ok p) (unstopped : s.stopOn = none)
    (fuel : Nat) :
    Verdict p (s.attach (p.start "" none)) s.marks 0 fuel (s.debug fuel code s.breakpoints).1
      (s.debug fuel code s.breakpoints).2 := by
  have verdict := nextBreakpoint_verdict (opened_waits p unstopped s.breakpoints) fuel
  have same : (s.opened p s.breakpoints).marks = s.marks := by
    ext line
    simp only [marks, opened, setBreakpoints, Set.mem_ofPred_eq, List.mem_eraseDups]
  rw [same] at verdict
  rw [debug, loaded]
  exact verdict

theorem paused_of_debug (loaded : Program.load code = .ok p) (unstopped : s.stopOn = none)
    (fuel : Nat) (paused : (s.debug fuel code s.breakpoints).1 = .ok (some m)) :
    Machine.Paused p m ∧ (s.debug fuel code s.breakpoints).2.program = some p := by
  refine paused_of_lastReply? loaded s unstopped fuel s.breakpoints [] ?_
  exact congrArg some paused

end Session

namespace Worker

open Session (run_ran debug_verdict paused_of_debug)
open Machine (Wordless Foreign stateAt)

variable {s : Session} {f : Machine.Failure} {code : String} {fuel : Nat} {call : Nat → Outcome}
  {r : Except Debug.Fault (Option Machine) × Session}

/-- Signals from which one learns what a program has come to. -/
def isReport : Signal → Bool
  | .ended | .error _ | .paused _ => true
  | .line _ => false

/-- Exactly one report is sent and no fault escapes. -/
def Heard (r : Outcome) : Prop := r.1 = none ∧ ∃ report, r.2.1.filter isReport = [report]

/-- A fault escapes and no report is sent. -/
def Escapes (r : Outcome) : Prop := (∃ g, r.1 = some g ∧ g ≠ .session .outOfFuel) ∧
    r.2.1.filter isReport = []

/-- The fuel is used up before the program has come to anything. -/
def Starved (r : Outcome) : Prop := r.1 = some (.session .outOfFuel)

/-- A command that is given enough fuel responds in this way. -/
def Settles (call : Nat → Outcome) (kind : Outcome → Prop) : Prop :=
  ∃ enough, ∀ fuel, enough ≤ fuel → kind (call fuel)

/-- How the response to a command agrees with the walk through its program. -/
inductive Sorts (p : Program) (start : Machine) (lines : Set Int) (fuel : Nat) (r : Outcome) : Prop
  | heard (told : WalkTold p start lines) (heard : Heard r)
  | escapes (untold : WalkUntold p start lines) (escapes : Escapes r)
  | starved (passed : Passed p start lines fuel) (starved : Starved r)

theorem Heard.not_starved {r : Outcome} (heard : Heard r) : ¬ Starved r := by
  intro starved
  rw [Starved, heard.1] at starved
  cases starved

theorem Escapes.not_starved {r : Outcome} (escapes : Escapes r) : ¬ Starved r := by
  intro starved
  obtain ⟨⟨g, found, other⟩, -⟩ := escapes
  exact other (Option.some.inj (found.symm.trans starved))

theorem Heard.not_escapes {r : Outcome} (heard : Heard r) : ¬ Escapes r := by
  rintro ⟨⟨g, found, -⟩, -⟩
  rw [heard.1] at found
  cases found

/-- Only fuel can keep a command from the response that its program deserves. -/
theorem settles_iff (each : ∀ fuel, Sorts p start lines fuel (call fuel)) :
    (Settles call Heard ↔ WalkTold p start lines) ∧
    (Settles call Escapes ↔ WalkUntold p start lines) := by
  refine ⟨⟨?_, ?_⟩, ?_, ?_⟩
  · rintro ⟨enough, all⟩
    have heard := all enough (Nat.le_refl _)
    cases each enough with
    | heard told _ => exact told
    | escapes _ escapes => exact absurd escapes heard.not_escapes
    | starved _ starved => exact absurd starved heard.not_starved
  · intro told
    obtain ⟨enough, fed⟩ := walk_bounded (.inl told)
    refine ⟨enough, fun fuel more => ?_⟩
    cases each fuel with
    | heard _ heard => exact heard
    | escapes untold _ => exact absurd untold told.not_untold
    | starved passed _ => exact absurd passed (fed fuel more)
  · rintro ⟨enough, all⟩
    have escapes := all enough (Nat.le_refl _)
    cases each enough with
    | heard _ heard => exact absurd escapes heard.not_escapes
    | escapes untold _ => exact untold
    | starved _ starved => exact absurd starved escapes.not_starved
  · intro untold
    obtain ⟨enough, fed⟩ := walk_bounded (.inr untold)
    refine ⟨enough, fun fuel more => ?_⟩
    cases each fuel with
    | heard told _ => exact absurd untold told.not_untold
    | escapes _ escapes => exact escapes
    | starved passed _ => exact absurd passed (fed fuel more)

/-! What passes the guard is heard; what does not escapes. -/

theorem guarded_worded {α : Type} (worded : Worded f) :
    ∃ text, guarded (.error (.program f) : Except Debug.Fault α) = .ok (.inr text) := by
  obtain ⟨⟨e, language⟩, text, said⟩ := worded
  refine ⟨text, ?_⟩
  simp only [guarded, shownMessage?, language, said]

theorem guarded_unworded {α : Type} (unworded : ¬ Worded f) :
    ∃ g, guarded (.error (.program f) : Except Debug.Fault α) = .error g ∧
      g ≠ .session .outOfFuel := by
  cases fault : f.fault with
  | language e =>
    cases said : f.message with
    | ok text => exact absurd ⟨⟨e, fault⟩, text, said⟩ unworded
    | error v =>
      refine ⟨.value v, ?_, fun same => by cases same⟩
      simp only [guarded, shownMessage?, fault, said]
  | _ =>
    refine ⟨.session (.program f), ?_, fun same => by cases same⟩
    simp only [guarded, shownMessage?, fault]

theorem guarded_load {α : Type} (f : Code.LoadFault) :
    (∃ e, f = .rejected e ∧ guarded (.error (.load f) : Except Debug.Fault α) =
        .ok (.inr e.message)) ∨
    (∀ e, f ≠ .rejected e) ∧ guarded (.error (.load f) : Except Debug.Fault α) =
      .error (.session (.load f)) := by
  cases f with
  | rejected e => exact .inl ⟨e, rfl, rfl⟩
  | _ => exact .inr ⟨nofun, rfl⟩

theorem run_heard {x : Option Machine ⊕ Text} (passed : guarded (s.run fuel code).1 = .ok x) :
    Heard (run fuel code s) := by
  unfold run
  simp only [passed]
  cases x with
  | inl m => exact ⟨rfl, _, rfl⟩
  | inr text => exact ⟨rfl, _, rfl⟩

theorem run_fault {g : Fault} (stopped : guarded (s.run fuel code).1 = .error g) :
    (run fuel code s).1 = some g ∧ (run fuel code s).2.1 = [] := by
  simp only [run, stopped, and_self]

theorem settle_heard {text : Text} (passed : guarded r.1 = .ok (.inr text)) : Heard (settle r) := by
  simp only [settle, passed]
  exact ⟨rfl, _, rfl⟩

theorem settle_fault {g : Fault} (stopped : guarded r.1 = .error g) :
    (settle r).1 = some g ∧ (settle r).2.1 = [] := by
  simp only [settle, stopped, and_self]

theorem escapes_of_fault {r : Outcome} {g : Fault} (fault : r.1 = some g ∧ r.2.1 = [])
    (other : g ≠ .session .outOfFuel) : Escapes r :=
  ⟨⟨g, fault.1, other⟩, by rw [fault.2]; rfl⟩

/-! The two commands. -/

section Loaded

variable (loaded : Program.load code = .ok p) (unstopped : s.stopOn = none)
include loaded unstopped

theorem run_sorts (fuel : Nat) :
    Sorts p (s.attach (p.start "" none)) ∅ fuel (run fuel code s) := by
  have replied := run_ran loaded unstopped fuel
  cases result : Machine.run p fuel (s.attach (p.start "" none)) with
  | mk outcome last =>
    rw [result] at replied
    have passing := congrArg guarded replied
    cases outcome with
    | finished =>
      exact .heard (walkTold_empty.mpr (.inl ⟨fuel, last, result⟩)) (run_heard passing)
    | failed f =>
      have comes : Comes p (s.attach (p.start "" none)) (.failed f) := ⟨fuel, last, result⟩
      by_cases worded : Worded f
      · obtain ⟨text, passed⟩ := guarded_worded worded
        exact .heard (walkTold_empty.mpr (.inr ⟨f, comes, worded⟩))
          (run_heard (passing.trans passed))
      · obtain ⟨g, stopped, other⟩ := guarded_unworded worded
        refine .escapes (walkUntold_empty.mpr ⟨f, comes, worded⟩) ?_
        exact escapes_of_fault (run_fault (passing.trans stopped)) other
    | outOfFuel =>
      exact .starved (passed_of_outOfFuel (congrArg Prod.fst result)) (run_fault passing).1

theorem debug_sorts (fuel : Nat) :
    Sorts p (s.attach (p.start "" none)) s.marks fuel (debug fuel code s) := by
  have verdict := debug_verdict loaded unstopped fuel
  have pauses := fun m => paused_of_debug (m := m) loaded unstopped fuel
  unfold debug
  generalize s.debug fuel code s.breakpoints = result at verdict pauses ⊢
  obtain ⟨reply, after⟩ := result
  cases verdict with
  | @pauses k m _ first =>
    obtain ⟨⟨⟨i, next⟩, -, -⟩, current⟩ := pauses m rfl
    have found : p.at? m.pc = some i := p.fetch?_eq m ▸ next
    refine .heard (.inl ⟨k, m, first⟩) ?_
    rw [settle_paused current found]
    exact ⟨rfl, _, rfl⟩
  | finishes comes unmarked closed => exact .heard (.inr ⟨unmarked, .inl comes⟩) ⟨rfl, _, rfl⟩
  | fails f comes unmarked =>
    by_cases worded : Worded f
    · obtain ⟨text, passed⟩ := guarded_worded worded
      exact .heard (.inr ⟨unmarked, .inr ⟨f, comes, worded⟩⟩) (settle_heard passed)
    · obtain ⟨g, stopped, other⟩ := guarded_unworded worded
      exact .escapes ⟨unmarked, f, comes, worded⟩ (escapes_of_fault (settle_fault stopped) other)
  | starves passed =>
    refine .starved (fun k before => passed k (Nat.zero_le k) ?_) rfl
    rwa [Nat.zero_add]

end Loaded

theorem load_fault_reported {f : Code.LoadFault} (failed : Program.load code = .error f)
    (fuel : Nat) :
    (∃ e, f = .rejected e) ∧ Heard (run fuel code s) ∧ Heard (debug fuel code s) ∨
    (∀ e, f ≠ .rejected e) ∧ Escapes (run fuel code s) ∧ Escapes (debug fuel code s) := by
  have ran : (s.run fuel code).1 = .error (.load f) := by simp only [Debug.Session.run, failed]
  have debugged : (s.debug fuel code s.breakpoints).1 = .error (.load f) := by
    simp only [Debug.Session.debug, failed]
  rcases guarded_load f with ⟨e, rejected, passed⟩ | ⟨other, stopped⟩
  · exact .inl ⟨⟨e, rejected⟩, run_heard (ran ▸ passed), settle_heard (debugged ▸ passed)⟩
  · have found : Fault.session (.load f) ≠ .session .outOfFuel := by
      intro same
      cases same
    refine .inr ⟨other, ?_, ?_⟩
    · exact escapes_of_fault (run_fault (ran ▸ stopped)) found
    · exact escapes_of_fault (settle_fault (debugged ▸ stopped)) found

theorem Sorts.kind {r : Outcome} (sorts : Sorts p start lines fuel r) :
    Heard r ∨ Escapes r ∨ Starved r := by
  cases sorts with
  | heard _ heard => exact .inl heard
  | escapes _ escapes => exact .inr (.inl escapes)
  | starved _ starved => exact .inr (.inr starved)

/-- A command to run or to debug sends exactly one report, or a fault escapes and none is sent, or
its fuel is used up. Code that is rejected is reported. A program that is run is reported if it
finishes or fails with words, and a program that is debugged also if it pauses; else a fault
escapes. Words are missing exactly if the instruction that fails has a cause to stop that the
language does not know, or for an index that has no text. -/
theorem command_reported_exactly (s : Session) (unstopped : s.stopOn = none) (code : String) :
    (∀ fuel, (Heard (run fuel code s) ∨ Escapes (run fuel code s) ∨ Starved (run fuel code s)) ∧
      (Heard (debug fuel code s) ∨ Escapes (debug fuel code s) ∨ Starved (debug fuel code s))) ∧
    (∀ f, Program.load code = .error f → ∀ fuel,
      (∃ e, f = .rejected e) ∧ Heard (run fuel code s) ∧ Heard (debug fuel code s) ∨
      (∀ e, f ≠ .rejected e) ∧ Escapes (run fuel code s) ∧ Escapes (debug fuel code s)) ∧
    ∀ p, Program.load code = .ok p →
      let start := s.attach (p.start "" none)
      (Settles (run · code s) Heard ↔ EndsTold p start) ∧
      (Settles (run · code s) Escapes ↔ EndsUntold p start) ∧
      (Settles (debug · code s) Heard ↔ WalkTold p start s.marks) ∧
      (Settles (debug · code s) Escapes ↔ WalkUntold p start s.marks) ∧
      ∀ f, Comes p start (.failed f) → ∃ k m m' i, stateAt p start k = some m ∧
        Machine.step p m = .failed f m' ∧ p.fetch? m = some i ∧
        (¬ Worded f ↔ Foreign m i.operands i.opcode f.fault ∨ Wordless f.fault) := by
  refine ⟨fun fuel => ?_, fun f failed fuel => load_fault_reported failed fuel, ?_⟩
  · cases loaded : Program.load code with
    | error f =>
      rcases load_fault_reported loaded fuel with ⟨-, ran, debugged⟩ | ⟨-, ran, debugged⟩
      · exact ⟨.inl ran, .inl debugged⟩
      · exact ⟨.inr (.inl ran), .inr (.inl debugged)⟩
    | ok p => exact ⟨(run_sorts loaded unstopped fuel).kind,
        (debug_sorts loaded unstopped fuel).kind⟩
  · intro p loaded start
    obtain ⟨runHeard, runEscapes⟩ := settles_iff fun fuel => run_sorts loaded unstopped fuel
    obtain ⟨debugHeard, debugEscapes⟩ := settles_iff fun fuel => debug_sorts loaded unstopped fuel
    rw [walkTold_empty] at runHeard
    rw [walkUntold_empty] at runEscapes
    refine ⟨runHeard, runEscapes, debugHeard, debugEscapes, ?_⟩
    rintro f ⟨fuel, last, ran⟩
    obtain ⟨k, m, reached, ends⟩ := Machine.run_endsAt (n := 0) rfl ran nofun
    cases ends with
    | failed _ m' stepped =>
      obtain ⟨i, fetched, words⟩ := Machine.not_worded_iff loaded stepped
      exact ⟨k, m, last, i, reached, stepped, fetched, words⟩

/-- A division by zero on the data stack. -/
def zeroDivision : Program where
  instructions :=
    #[⟨.push, [.constant (.int 1)], 2, "PUSHS int@1"⟩,
      ⟨.push, [.constant (.int 0)], 3, "PUSHS int@0"⟩,
      ⟨.binaryStack .div, [], 4, "DIVS"⟩]

def zeroDivisionCode : String := ".IFJcode17\nPUSHS int@1\nPUSHS int@0\nDIVS\n"

/-- A session with a breakpoint on the division. -/
def beforeDivision : Session := { breakpoints := [4] }

/-- The pause before the division is reported; the division itself is not. -/
theorem zeroDivision_reported :
    Program.load zeroDivisionCode = .ok zeroDivision ∧ beforeDivision.stopOn = none ∧
    Settles (debug · zeroDivisionCode beforeDivision) Heard ∧
    Settles (run · zeroDivisionCode beforeDivision) Escapes := by
  have loaded : Program.load zeroDivisionCode = .ok zeroDivision :=
    eq_ok_of_toOption (by decide +kernel)
  let start := beforeDivision.attach (zeroDivision.start "" none)
  obtain ⟨-, -, reported⟩ := command_reported_exactly beforeDivision rfl zeroDivisionCode
  obtain ⟨-, runEscapes, debugHeard, -, -⟩ := reported zeroDivision loaded
  refine ⟨loaded, rfl, debugHeard.mpr (.inl ⟨2, Machine.reached zeroDivision start 2, ?_⟩),
    runEscapes.mpr ?_⟩
  · have earlier : ∀ j < 2, ∀ x ∈ stateAt zeroDivision start j,
        (zeroDivision.fetch? x).map (·.index) ≠ some 4 := by decide +kernel
    refine ⟨Nat.zero_le _, by decide +kernel, ⟨⟨.binaryStack .div, [], 4, "DIVS"⟩,
      by decide +kernel, ?_⟩, ?_⟩
    · exact List.mem_singleton_self _
    · rintro j x - before reached ⟨i, fetched, marked⟩
      refine earlier j before x reached ?_
      rw [fetched, Option.map_some, List.mem_singleton.mp marked]
  · have failed : (Machine.run zeroDivision 9 start).1 =
        .failed { fault := .value .divisionByZero } := by
      decide +kernel
    refine ⟨_, ⟨9, (Machine.run zeroDivision 9 start).2, by rw [← failed]⟩, ?_⟩
    rintro ⟨⟨e, language⟩, -⟩
    cases language

/-- Writing a variable that has not been declared ends the program, and nothing is signalled. The
message is there: assigning to the variable is reported with it. -/
theorem undeclared_read_unreported :
    (run 9 ".IFJcode17\nWRITE GF@x\n" {}).1 =
      some (.session (.program { fault := .unknownName "x" })) ∧
    (run 9 ".IFJcode17\nWRITE GF@x\n" {}).2.1 = [] ∧
    (debug 9 ".IFJcode17\nWRITE GF@x\n" {}).2.1 = [] ∧
    (run 9 ".IFJcode17\nMOVE GF@x int@1\n" {}).2.1 =
      [.error "Undeclared variable GF@x on line 2: MOVE GF@x int@1."] := by
  decide +kernel

end Worker
end Debug
end TacBench
