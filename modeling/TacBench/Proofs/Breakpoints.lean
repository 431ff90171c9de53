import Mathlib.Data.Set.Insert
import TacBench.Proofs.Prices
import TacBench.Proofs.Stepping

/-! Where a session pauses. The walk to a breakpoint goes to the first later state of the program's
run whose next instruction stands on a line with a breakpoint, as they are set at that time, and it
ends or fails only if the run does so before. -/
namespace TacBench.Debug

open Machine (stateAt stateAt_eq_none stateAt_price run_endsAt run_outcome_unique)

/-- The lines with a breakpoint after a change. -/
def Edit.apply (lines : Set Int) : Edit → Set Int
  | .add line => insert line lines
  | .remove line => lines \ {line}
  | .assign chosen => {line | line ∈ chosen}

/-- The lines with a breakpoint after requests. -/
def edited (lines : Set Int) (requests : List Request) : Set Int :=
  requests.foldl (fun lines r =>
    match r with
    | .edit e => e.apply lines
    | _ => lines) lines

/-- The next instruction stands on one of the lines. -/
def Marked (p : Program) (lines : Set Int) (m : Machine) : Prop :=
  ∃ i, p.fetch? m = some i ∧ i.index ∈ lines

/-- The state with number `k` is the first marked one from number `n` on. -/
structure FirstMarked (p : Program) (start : Machine) (lines : Set Int) (n k : Nat) (m : Machine) :
    Prop where
  later : n ≤ k
  reached : stateAt p start k = some m
  marked : Marked p lines m
  first : ∀ j x, n ≤ j → j < k → stateAt p start j = some x → ¬ Marked p lines x

/-- No state from number `n` on is marked. -/
def Unmarked (p : Program) (start : Machine) (lines : Set Int) (n : Nat) : Prop :=
  ∀ k m, n ≤ k → stateAt p start k = some m → ¬ Marked p lines m

/-- The run comes to this end. -/
def Comes (p : Program) (start : Machine) (o : Machine.Outcome) : Prop :=
  ∃ fuel last, Machine.run p fuel start = (o, last)

variable {p : Program} {start m m' : Machine} {n k fuel : Nat} {w : Walk} {s : Session}
  {lines : Set Int} {reply : Reply} {call : Nat → Reply × Session}

theorem FirstMarked.unique (first : FirstMarked p start lines n k m) {k' : Nat}
    (other : FirstMarked p start lines n k' m') : m = m' := by
  rcases Nat.lt_trichotomy k k' with sooner | rfl | later
  · exact absurd first.marked (other.first k m first.later sooner first.reached)
  · exact Option.some.inj (first.reached.symm.trans other.reached)
  · exact absurd other.marked (first.first k' m' other.later later other.reached)

theorem FirstMarked.not_unmarked (first : FirstMarked p start lines n k m) :
    ¬ Unmarked p start lines n := fun unmarked =>
  unmarked k m first.later first.reached first.marked

/-- A run that ends has only so many states. -/
theorem Comes.bounded {o : Machine.Outcome} (comes : Comes p start o) (enough : o ≠ .outOfFuel) :
    ∃ bound, ∀ k, bound ≤ k → stateAt p start k = none := by
  obtain ⟨fuel, last, ran⟩ := comes
  obtain ⟨k, before, reached, ends⟩ := run_endsAt (n := 0) rfl ran enough
  exact ⟨k + 1, fun j later => stateAt_eq_none reached ends.next?_eq_none later⟩

theorem Comes.unique {o o' : Machine.Outcome} (comes : Comes p start o) (enough : o ≠ .outOfFuel)
    (comes' : Comes p start o') (enough' : o' ≠ .outOfFuel) : o = o' := by
  obtain ⟨fuel, last, ran⟩ := comes
  obtain ⟨fuel', last', ran'⟩ := comes'
  exact run_outcome_unique ran enough ran' enough'

namespace Session

/-- The reply to a request for the next breakpoint, and the session after it, if the session waits
for the state with number `n`. Without enough fuel, the states that it paid for have been passed. -/
inductive Verdict (p : Program) (start : Machine) (lines : Set Int) (n : Nat) :
    Nat → Reply → Session → Prop
  | pauses {fuel k : Nat} {m : Machine} {s : Session} (first : FirstMarked p start lines n k m) :
      Verdict p start lines n fuel (.ok (some m)) s
  | finishes {fuel : Nat} {s : Session} (comes : Comes p start .finished)
      (unmarked : Unmarked p start lines n) (closed : s.active = some false) :
      Verdict p start lines n fuel (.ok none) s
  | fails {fuel : Nat} {s : Session} (f : Machine.Failure) (comes : Comes p start (.failed f))
      (unmarked : Unmarked p start lines n) : Verdict p start lines n fuel (.error (.program f)) s
  | starves {fuel : Nat} {s : Session}
      (passed : ∀ k, n ≤ k → k < n + fuel → ∃ m, stateAt p start k = some m ∧ ¬ Marked p lines m) :
      Verdict p start lines n fuel (.error .outOfFuel) s

theorem lineAt?_pc {i : Instruction} (fetched : p.fetch? m = some i) :
    p.lineAt? m.pc = some i.index :=
  Program.lineAt?_of_at? (p.fetch?_eq m ▸ fetched)

/-! Walking changes no breakpoints. -/

theorem resume_breakpoints (w : Walk) (s : Session) :
    (resume w s).2.2.breakpoints = s.breakpoints := by
  unfold resume
  split
  · rfl
  · rfl
  · dsimp only
    split
    · rfl
    · rfl
    · rfl
    · dsimp only
      split <;> rfl

theorem walkToBreakpoint_breakpoints (fuel : Nat) (w : Walk) (s : Session) :
    (walkToBreakpoint fuel w s).2.breakpoints = s.breakpoints := by
  induction fuel generalizing w s with
  | zero => rfl
  | succ fuel ih =>
    have kept := resume_breakpoints w s
    unfold walkToBreakpoint
    generalize resume w s = result at kept ⊢
    obtain ⟨_ | _ | f, w', s'⟩ := result
    · dsimp only
      split
      · exact kept
      · split
        · exact kept
        · split
          · exact kept
          · exact (ih w' s').trans kept
    · exact kept
    · exact kept

theorem nextBreakpoint_breakpoints (fuel : Nat) (s : Session) :
    (s.nextBreakpoint fuel).2.breakpoints = s.breakpoints := by
  unfold nextBreakpoint
  split
  · rfl
  · split
    · rfl
    · exact walkToBreakpoint_breakpoints fuel _ s

theorem nextLine_breakpoints (s : Session) : s.nextLine.2.breakpoints = s.breakpoints := by
  unfold nextLine
  split
  · rfl
  · split
    · rfl
    · rename_i w _
      have kept := resume_breakpoints w s
      generalize resume w s = result at kept ⊢
      obtain ⟨r, w', s'⟩ := result
      cases r <;> exact kept

def marks (s : Session) : Set Int := {line | line ∈ s.breakpoints}

theorem marks_edit (s : Session) (e : Edit) : (s.edit e).marks = e.apply s.marks := by
  ext line
  cases e with
  | add added =>
    simp only [marks, edit, addBreakpoint, Edit.apply, Set.mem_ofPred_eq, Set.mem_insert_iff]
    split
    · rename_i known
      constructor
      · exact .inr
      · rintro (rfl | member)
        · exact known
        · exact member
    · simp only [List.mem_append, List.mem_singleton]
      exact or_comm
  | remove removed =>
    simp only [marks, edit, removeBreakpoint, Edit.apply, Set.mem_ofPred_eq, Set.mem_sdiff,
      Set.mem_singleton_iff]
    split
    · simp only [Except.toOption, Option.getD_some, List.mem_filter, decide_eq_true_eq]
    · rename_i unknown
      constructor
      · exact fun member => ⟨member, fun same => unknown (same ▸ member)⟩
      · exact And.left
  | assign chosen =>
    simp only [marks, edit, setBreakpoints, Edit.apply, Set.mem_ofPred_eq, List.mem_eraseDups]

theorem marks_perform (s : Session) (r : Request) : (s.perform r).2.marks = edited s.marks [r] := by
  cases r with
  | line => exact congrArg (fun lines => {line | line ∈ lines}) s.nextLine_breakpoints
  | breakpoint fuel =>
    exact congrArg (fun lines => {line | line ∈ lines}) (nextBreakpoint_breakpoints fuel s)
  | edit e => exact marks_edit s e

theorem marks_performAll (s : Session) (requests : List Request) :
    (s.performAll requests).2.marks = edited s.marks requests := by
  induction requests generalizing s with
  | nil => rfl
  | cons r rest ih =>
    calc ((s.perform r).2.performAll rest).2.marks
      _ = edited (s.perform r).2.marks rest := ih _
      _ = edited (edited s.marks [r]) rest := by rw [marks_perform]
      _ = edited s.marks (r :: rest) := rfl

/-! The walk to a breakpoint. -/

theorem Exhausted.unmarked (last : Exhausted p start n) (lines : Set Int) :
    Unmarked p start lines n := by
  rintro k m later reached ⟨i, fetched, -⟩
  rw [last k m later reached] at fetched
  cases fetched

theorem Verdict.earlier (reached : stateAt p start n = some m) (passed : ¬ Marked p lines m)
    (verdict : Verdict p start lines (n + 1) fuel reply s) :
    Verdict p start lines n (fuel + 1) reply s := by
  have here (x : Machine) (found : stateAt p start n = some x) : ¬ Marked p lines x := by
    cases Option.some.inj (reached.symm.trans found)
    exact passed
  have all (unmarked : Unmarked p start lines (n + 1)) : Unmarked p start lines n := by
    intro k x later found
    rcases Nat.eq_or_lt_of_le later with rfl | later
    · exact here x found
    · exact unmarked k x later found
  cases verdict with
  | pauses first =>
    refine .pauses ⟨Nat.le_of_succ_le first.later, first.reached, first.marked, ?_⟩
    intro j x low high found
    rcases Nat.eq_or_lt_of_le low with rfl | low
    · exact here x found
    · exact first.first j x low high found
  | finishes comes unmarked closed => exact .finishes comes (all unmarked) closed
  | fails f comes unmarked => exact .fails f comes (all unmarked)
  | starves later =>
    refine .starves fun k low high => ?_
    rcases Nat.eq_or_lt_of_le low with rfl | low
    · exact ⟨m, reached, passed⟩
    · exact later k low (by omega)

theorem walkToBreakpoint_verdict (standing : Standing p start n w s) (fuel : Nat) :
    Verdict p start s.marks n fuel (walkToBreakpoint fuel w s).1 (walkToBreakpoint fuel w s).2 := by
  induction fuel generalizing n w s with
  | zero => exact .starves fun k low high => by omega
  | succ fuel ih =>
    have resumed := resume_resumes standing
    have kept := resume_breakpoints w s
    unfold walkToBreakpoint
    generalize resume w s = result at resumed kept ⊢
    cases resumed with
    | finished ended last =>
      obtain ⟨enough, ran⟩ := ended.run
      exact .finishes ⟨enough, _, ran⟩ (last.unmarked _) rfl
    | failed ended last =>
      obtain ⟨enough, ran⟩ := ended.run
      exact .fails _ ⟨enough, _, ran⟩ (last.unmarked _)
    | @paused w' s' reached more standing' =>
      obtain ⟨i, fetched⟩ := Option.isSome_iff_exists.mp more
      have same : s'.marks = s.marks := congrArg (fun lines => {line | line ∈ lines}) kept
      simp only [standing'.active, ne_eq, not_true_eq_false, ↓reduceIte, standing'.loaded,
        Option.bind_some, lineAt?_pc fetched]
      split
      · rename_i member
        have marked : Marked p s.marks w'.machine := ⟨i, fetched, same ▸ member⟩
        exact .pauses ⟨Nat.le_refl n, reached, marked, fun j x low high => by omega⟩
      · rename_i other
        have rest := ih standing'
        rw [same] at rest
        refine rest.earlier reached ?_
        rintro ⟨i', fetched', member⟩
        cases Option.some.inj (fetched.symm.trans fetched')
        rw [← same] at member
        exact other member

theorem nextBreakpoint_verdict (waiting : Waiting p start n s) (fuel : Nat) :
    Verdict p start s.marks n fuel (s.nextBreakpoint fuel).1 (s.nextBreakpoint fuel).2 := by
  obtain ⟨w, walk, standing⟩ := waiting
  simp only [nextBreakpoint, standing.active, ne_eq, not_true_eq_false, ↓reduceIte, walk]
  exact walkToBreakpoint_verdict standing fuel

/-- A call that is given enough fuel comes to an answer of this kind. -/
def Answered (call : Nat → Reply × Session) (kind : Reply × Session → Prop) : Prop :=
  ∃ enough, ∀ fuel, enough ≤ fuel → kind (call fuel)

/-- A call pauses at the first marked state from number `n` on. It says that the run is finished,
and closes the session, or it fails as the run does, exactly if the run does so without coming to a
marked state. Fuel can only cut it short. -/
structure PausesExactly (p : Program) (start : Machine) (lines : Set Int) (n : Nat)
    (call : Nat → Reply × Session) : Prop where
  pauses : ∀ m, Answered call (fun r => r.1 = .ok (some m)) ↔ ∃ k, FirstMarked p start lines n k m
  finishes : Answered call (fun r => r.1 = .ok none ∧ r.2.active = some false) ↔
    Comes p start .finished ∧ Unmarked p start lines n
  fails : ∀ f, Answered call (fun r => r.1 = .error (.program f)) ↔
    Comes p start (.failed f) ∧ Unmarked p start lines n
  otherwise : ∀ fuel, (call fuel).1 = .error .outOfFuel ∨
    Answered call fun r => r.1 = (call fuel).1 ∧
      ((∃ m, r.1 = .ok (some m)) ∨ r.1 = .ok none ∧ r.2.active = some false ∨
        ∃ f, r.1 = .error (.program f))

section Verdicts

variable (verdicts : ∀ fuel, Verdict p start lines n fuel (call fuel).1 (call fuel).2)
include verdicts

theorem answered_of_first (first : FirstMarked p start lines n k m) :
    Answered call fun r => r.1 = .ok (some m) := by
  refine ⟨k + 1, fun fuel enough => ?_⟩
  have verdict := verdicts fuel
  generalize call fuel = result at verdict ⊢
  obtain ⟨reply, after⟩ := result
  cases verdict with
  | pauses other => rw [other.unique first]
  | finishes _ unmarked _ => exact absurd unmarked first.not_unmarked
  | fails _ _ unmarked => exact absurd unmarked first.not_unmarked
  | starves passed =>
    obtain ⟨x, reached, unmarked⟩ := passed k first.later (by omega)
    cases Option.some.inj (first.reached.symm.trans reached)
    exact absurd first.marked unmarked

theorem answered_of_finished (comes : Comes p start .finished)
    (unmarked : Unmarked p start lines n) :
    Answered call fun r => r.1 = .ok none ∧ r.2.active = some false := by
  obtain ⟨bound, none⟩ := comes.bounded nofun
  refine ⟨bound + 1, fun fuel enough => ?_⟩
  have verdict := verdicts fuel
  generalize call fuel = result at verdict ⊢
  obtain ⟨reply, after⟩ := result
  cases verdict with
  | pauses first => exact absurd unmarked first.not_unmarked
  | finishes _ _ closed => exact ⟨rfl, closed⟩
  | fails f other _ => cases comes.unique nofun other nofun
  | starves passed =>
    obtain ⟨x, reached, -⟩ := passed (n + bound) (Nat.le_add_right n bound) (by omega)
    rw [none _ (Nat.le_add_left bound n)] at reached
    cases reached

theorem answered_of_failed {f : Machine.Failure} (comes : Comes p start (.failed f))
    (unmarked : Unmarked p start lines n) : Answered call fun r => r.1 = .error (.program f) := by
  obtain ⟨bound, none⟩ := comes.bounded nofun
  refine ⟨bound + 1, fun fuel enough => ?_⟩
  have verdict := verdicts fuel
  generalize call fuel = result at verdict ⊢
  obtain ⟨reply, after⟩ := result
  cases verdict with
  | pauses first => exact absurd unmarked first.not_unmarked
  | finishes other _ _ => cases comes.unique nofun other nofun
  | fails f other _ =>
    cases comes.unique nofun other nofun
    rfl
  | starves passed =>
    obtain ⟨x, reached, -⟩ := passed (n + bound) (Nat.le_add_right n bound) (by omega)
    rw [none _ (Nat.le_add_left bound n)] at reached
    cases reached

theorem pausesExactly : PausesExactly p start lines n call := by
  constructor
  · intro m
    constructor
    · rintro ⟨enough, all⟩
      have verdict := verdicts enough
      rw [all enough (Nat.le_refl _)] at verdict
      cases verdict with
      | pauses first => exact ⟨_, first⟩
    · rintro ⟨k, first⟩
      exact answered_of_first verdicts first
  · constructor
    · rintro ⟨enough, all⟩
      have verdict := verdicts enough
      rw [(all enough (Nat.le_refl _)).1] at verdict
      cases verdict with
      | finishes comes unmarked _ => exact ⟨comes, unmarked⟩
    · rintro ⟨comes, unmarked⟩
      exact answered_of_finished verdicts comes unmarked
  · intro f
    constructor
    · rintro ⟨enough, all⟩
      have verdict := verdicts enough
      rw [all enough (Nat.le_refl _)] at verdict
      cases verdict with
      | fails _ comes unmarked => exact ⟨comes, unmarked⟩
    · rintro ⟨comes, unmarked⟩
      exact answered_of_failed verdicts comes unmarked
  · intro fuel
    have verdict := verdicts fuel
    generalize (call fuel).1 = reply, (call fuel).2 = after at verdict ⊢
    cases verdict with
    | starves passed => exact .inl rfl
    | pauses first =>
      obtain ⟨enough, all⟩ := answered_of_first verdicts first
      exact .inr ⟨enough, fun fuel more => ⟨all fuel more, .inl ⟨_, all fuel more⟩⟩⟩
    | finishes comes unmarked _ =>
      obtain ⟨enough, all⟩ := answered_of_finished verdicts comes unmarked
      exact .inr ⟨enough, fun fuel more => ⟨(all fuel more).1, .inr (.inl (all fuel more))⟩⟩
    | fails f comes unmarked =>
      obtain ⟨enough, all⟩ := answered_of_failed verdicts comes unmarked
      exact .inr ⟨enough, fun fuel more => ⟨all fuel more, .inr (.inr ⟨f, all fuel more⟩)⟩⟩

end Verdicts

/-- The newest reply of a dialogue. -/
def lastReply? (dialogue : Dialogue) : Option Reply :=
  dialogue.foldl (fun last q => q.2.or last) none

/-- A session after a dialogue whose newest reply is known. If that shows a state, the session
pauses there. -/
inductive Stands (p : Program) (start : Machine) : Option Reply → Session → Prop
  | waits {n : Nat} {last : Option Reply} {s : Session} (waiting : Waiting p start n s)
      (pause : ∀ m, last = some (.ok (some m)) → ∃ k, n = k + 1 ∧ stateAt p start k = some m ∧
        (p.fetch? m).isSome) : Stands p start last s
  | past {o : Machine.Outcome} {last : Option Reply} {s : Session} (past : Over p start o s)
      (silent : ∀ m, last ≠ some (.ok (some m))) : Stands p start last s

theorem Answers.stands {r : Request} (answers : Answers p start n r reply s) :
    Stands p start (some reply) s := by
  cases answers with
  | @state _ k m _ later reached more waiting =>
    refine .waits waiting fun x same => ⟨k, rfl, ?_⟩
    cases same
    exact ⟨reached, more⟩
  | starved waiting => exact .waits waiting nofun
  | ended told past =>
    refine .past past fun m same => ?_
    cases same
    cases told

theorem Stands.perform {last : Option Reply} (stands : Stands p start last s) (r : Request) :
    Stands p start ((s.perform r).1.or last) (s.perform r).2 := by
  cases stands with
  | waits waiting pause =>
    cases r with
    | line => exact (nextLine_answers waiting).stands
    | breakpoint fuel => exact (nextBreakpoint_answers waiting fuel).stands
    | edit e => exact .waits (waiting.edit e) pause
  | past past silent =>
    cases r with
    | line =>
      obtain ⟨past, quiet⟩ := past.nextLine
      exact .past past fun m same => quiet m (Option.some.inj same)
    | breakpoint fuel =>
      obtain ⟨past, quiet⟩ := past.nextBreakpoint fuel
      exact .past past fun m same => quiet m (Option.some.inj same)
    | edit e => exact .past (past.edit e) silent

theorem Stands.performAll {last : Option Reply} (stands : Stands p start last s)
    (requests : List Request) :
    Stands p start ((s.performAll requests).1.foldl (fun last q => q.2.or last) last)
      (s.performAll requests).2 := by
  induction requests generalizing s last with
  | nil => exact stands
  | cons r rest ih => exact ih (stands.perform r)

/-- To debug a program is to pause at the first of its states whose next instruction stands on a
line with a breakpoint. Whatever has been asked before, to go on to the next breakpoint from a pause
is to pause at the first such state behind it, with the breakpoints as they are then. -/
theorem breakpoints_pause_exactly {code : String} {p : Program} (loaded : Program.load code = .ok p)
    (s : Session) (unstopped : s.stopOn = none) (breakpoints : List Int) :
    let start := s.attach (p.start "" none)
    let lines : Set Int := {line | line ∈ breakpoints}
    PausesExactly p start lines 0 (fun fuel => s.debug fuel code breakpoints) ∧
    ∀ fuel requests m,
      lastReply? (s.conversation fuel code breakpoints requests).1 = some (.ok (some m)) →
      stateAt p start m.executed = some m ∧ (p.fetch? m).isSome ∧
      PausesExactly p start (edited lines requests) (m.executed + 1)
        (s.conversation fuel code breakpoints requests).2.nextBreakpoint := by
  intro start lines
  have waits : Waiting p start 0 (s.opened p breakpoints) := opened_waits p unstopped breakpoints
  have marked : (s.opened p breakpoints).marks = lines := by
    ext line
    simp only [marks, opened, setBreakpoints, lines, Set.mem_ofPred_eq, List.mem_eraseDups]
  refine ⟨pausesExactly fun fuel => ?_, fun fuel requests m paused => ?_⟩
  · have verdict := nextBreakpoint_verdict waits fuel
    rw [marked] at verdict
    simp only [debug, loaded]
    exact verdict
  · rw [conversation_eq loaded] at paused ⊢
    have standing : Stands p start none (s.opened p breakpoints) :=
      .waits waits fun m same => by cases same
    have stands := standing.performAll (.breakpoint fuel :: requests)
    have current := marks_performAll (s.opened p breakpoints) (.breakpoint fuel :: requests)
    rw [marked] at current
    change Stands p start (lastReply? _) _ at stands
    rw [paused] at stands
    cases stands with
    | past past silent => exact absurd rfl (silent m)
    | waits waiting pause =>
      obtain ⟨k, rfl, reached, more⟩ := pause m rfl
      have executed : m.executed = k := by
        have counted := (stateAt_price reached).2.1
        exact counted.trans (Nat.zero_add k)
      rw [executed]
      refine ⟨reached, more, pausesExactly fun fuel' => ?_⟩
      have verdict := nextBreakpoint_verdict waiting fuel'
      rwa [current] at verdict

/-- Counts to two; a comment stands inside the loop. -/
def countToTwo : Program where
  instructions :=
    let n : Operand := .var ⟨.globals, true, true⟩ "n"
    #[⟨.defVar, [n], 2, "DEFVAR GF@n"⟩,
      ⟨.move, [n, .constant (.int 0)], 3, "MOVE GF@n int@0"⟩,
      ⟨.label, [.label "again"], 4, "LABEL again"⟩,
      ⟨.binary .add, [n, n, .constant (.int 1)], 6, "ADD GF@n GF@n int@1"⟩,
      ⟨.jumpIf false, [.label "again", n, .constant (.int 2)], 7, "JUMPIFNEQ again GF@n int@2"⟩]

def countToTwoCode : String :=
  ".IFJcode17\nDEFVAR GF@n\nMOVE GF@n int@0\nLABEL again\n# one more\n" ++
  "ADD GF@n GF@n int@1\nJUMPIFNEQ again GF@n int@2\n"

theorem countToTwo_loads : Program.load countToTwoCode = .ok countToTwo :=
  eq_ok_of_toOption (by decide +kernel)

/-- Paused in the loop; the breakpoint there is exchanged for one at its head. -/
def countToTwoConversation : Dialogue × Session :=
  ({} : Session).conversation 9 countToTwoCode [6] [.edit (.remove 6), .edit (.add 4)]

/-- The machine that a reply shows. -/
def shownBy (reply : Option Reply) : Machine := ((reply.bind Except.toOption).bind id).getD default

def countToTwoPause : Machine := shownBy (lastReply? countToTwoConversation.1)

def countToTwoNext : Machine := shownBy (countToTwoConversation.2.nextBreakpoint 9).1

/-- From the pause after three instructions the walk goes round to the head of the loop. -/
theorem countToTwo_pauses :
    Program.load countToTwoCode = .ok countToTwo ∧
    lastReply? countToTwoConversation.1 = some (.ok (some countToTwoPause)) ∧
    countToTwoPause.executed = 3 ∧
    (countToTwoConversation.2.nextBreakpoint 9).1 = .ok (some countToTwoNext) ∧
    countToTwoNext.pc = 2 ∧
    ∃ k, FirstMarked countToTwo (countToTwo.start "" none)
      (edited {line | line ∈ [6]} [.edit (.remove 6), .edit (.add 4)]) 4 k countToTwoNext := by
  have opened := conversation_eq countToTwo_loads {} 9 [6] [.edit (.remove 6), .edit (.add 4)]
  have replied : (lastReply? countToTwoConversation.1).bind Except.toOption =
      some (some countToTwoPause) := by
    simp only [countToTwoPause, countToTwoConversation, opened]
    decide +kernel
  have paused : lastReply? countToTwoConversation.1 = some (.ok (some countToTwoPause)) := by
    obtain ⟨reply, last, shown⟩ := Option.bind_eq_some_iff.mp replied
    rw [last, eq_ok_of_toOption shown]
  have executed : countToTwoPause.executed = 3 := by
    simp only [countToTwoPause, countToTwoConversation, opened]
    decide +kernel
  have answered : (countToTwoConversation.2.nextBreakpoint 9).1 = .ok (some countToTwoNext) := by
    apply eq_ok_of_toOption
    simp only [countToTwoNext, countToTwoConversation, opened]
    decide +kernel
  have position : countToTwoNext.pc = 2 := by
    simp only [countToTwoNext, countToTwoConversation, opened]
    decide +kernel
  obtain ⟨-, next⟩ := breakpoints_pause_exactly countToTwo_loads {} rfl [6]
  obtain ⟨-, -, exactly⟩ := next 9 [.edit (.remove 6), .edit (.add 4)] countToTwoPause paused
  rw [executed] at exactly
  have settled := exactly.otherwise 9
  change (countToTwoConversation.2.nextBreakpoint 9).1 = _ ∨
    Answered countToTwoConversation.2.nextBreakpoint (fun r =>
      r.1 = (countToTwoConversation.2.nextBreakpoint 9).1 ∧ _) at settled
  rw [answered] at settled
  rcases settled with starved | ⟨enough, all⟩
  · cases starved
  · exact ⟨countToTwo_loads, paused, executed, answered, position,
      (exactly.pauses countToTwoNext).mp ⟨enough, fun fuel more => (all fuel more).1⟩⟩

end Session
end TacBench.Debug
