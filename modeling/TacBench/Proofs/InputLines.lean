import TacBench.Proofs.Loaded
import TacBench.Proofs.Parallel
import TacBench.Proofs.Words

/-! Input is taken a line at a time, and only by the command that reads. A run therefore depends on
no more lines of its input than it has reached read commands, whatever becomes of them. -/
namespace TacBench

namespace Text

/-- A line of an input, counted from zero; behind the last one there are only empty ones. -/
def inputLine (s : List Char) (k : Nat) : List Char := ((s.splitOn '\n')[k]?).getD []

/-- An input without its first lines. -/
def behindLines : Nat → List Char → List Char
  | 0, s => s
  | _ + 1, [] => []
  | k + 1, c :: s => if c = '\n' then behindLines k s else behindLines (k + 1) s

theorem takeLine_cases (s : List Char) :
    s.splitOn '\n' = [(takeLine s).1] ∧ (takeLine s).2 = [] ∨
    ∃ text, (takeLine s).1 = text ++ ['\n'] ∧ s.splitOn '\n' = text ::
      (takeLine s).2.splitOn '\n' := by
  induction s with
  | nil => exact .inl ⟨rfl, rfl⟩
  | cons c s ih =>
    rw [List.splitOn_cons_eq_if_modifyHead]
    by_cases last : c = '\n'
    · refine .inr ⟨[], ?_⟩
      simp [takeLine, last]
    · simp only [takeLine, last, beq_iff_eq, if_false]
      rcases ih with ⟨whole, rest⟩ | ⟨text, ended, more⟩
      · exact .inl ⟨by rw [whole]; rfl, rest⟩
      · exact .inr ⟨c :: text, by rw [ended]; rfl, by rw [more]; rfl⟩

theorem strip_takeLine (s : List Char) : strip (takeLine s).1 = strip (inputLine s 0) := by
  unfold inputLine
  rcases takeLine_cases s with ⟨whole, -⟩ | ⟨text, ended, more⟩
  · rw [whole]
    rfl
  · rw [more, ended]
    exact stripBy_append_of_blank (by decide) text

theorem inputLine_takeLine (s : List Char) (k : Nat) :
    inputLine (takeLine s).2 k = inputLine s (k + 1) := by
  unfold inputLine
  rcases takeLine_cases s with ⟨whole, rest⟩ | ⟨text, -, more⟩
  · rw [whole, rest]
    cases k <;> rfl
  · rw [more]
    rfl

theorem behindLines_zero (s : List Char) : behindLines 0 s = s := by
  cases s <;> rfl

theorem behindLines_succ (k : Nat) (s : List Char) :
    behindLines (k + 1) s = behindLines k (takeLine s).2 := by
  induction s with
  | nil => cases k <;> rfl
  | cons c s ih =>
    by_cases last : c = '\n'
    · simp [behindLines, takeLine, last]
    · simp only [behindLines, takeLine, last, if_false]
      exact ih

end Text

namespace Machine

open Text

variable {p : Program} {m : Machine} {c : Opcode} {os : List Operand} {input : List Char}

theorem Matches.left {α : Type} {t : Tolerance} {line : Int} {x y : Exec α} {m m' : Machine}
    (both : Matches t input line (x.run m) (y.run m')) :
    left y m' = (left x m).displaced input line := by
  unfold Machine.left
  generalize x.run m = r at both ⊢
  generalize y.run m' = r' at both ⊢
  cases both <;> rfl

/-- The machine on another input. -/
def fed (m : Machine) (input : List Char) : Machine := { m with input }

-- A computation beside itself: what is given to both sides is what is left on either.
theorem command_keeps (count : os.length = c.arity) (m : Machine) :
    (left (command c os) m).input = inputAfter c m.input ∧
    (left (command c os) m).line = m.line := by
  have like : List.Forall₂ Tolerance.strict.Operands os os :=
    List.forall₂_same.mpr fun o _ => .refl o
  have both : Matches .strict (inputAfter c m.input) m.line ((command c os).run m)
      ((command c os).run (m.displaced m.input m.line)) := command_matches like count fun _ => rfl
  have self : left (command c os) m = (left (command c os) m).displaced _ m.line := both.left
  have input := congrArg Machine.input self
  have line := congrArg Machine.line self
  exact ⟨input, line⟩

theorem command_fed (count : os.length = c.arity)
    (agrees : c = .read → inputLine m.input 0 = inputLine input 0) :
    (command c os).run (m.fed input) = match (command c os).run m with
      | .ok u n => .ok u (n.fed (inputAfter c input))
      | .error e n => .error e (n.fed (inputAfter c input)) := by
  have like : List.Forall₂ Tolerance.strict.Operands os os :=
    List.forall₂_same.mpr fun o _ => .refl o
  have first (reads : c = .read) : strip (takeLine m.input).1 = strip (takeLine input).1 := by
    rw [strip_takeLine, strip_takeLine, agrees reads]
  have both : Matches .strict (inputAfter c input) m.line ((command c os).run m)
      ((command c os).run (m.fed input)) := command_matches like count first
  have kept := (command_keeps count m).2
  unfold left at kept
  generalize (command c os).run m = r at both kept ⊢
  generalize (command c os).run (m.fed input) = r' at both ⊢
  cases both with
  | ok u n =>
    rw [← kept]
    rfl
  | error same n =>
    rw [← kept, show _ = _ from same]
    rfl

theorem advance_fed (before after : Machine) (rest : List Char) :
    advance (before.fed input) (after.fed rest) = (advance before after).fed rest := by
  have line : (advance before after).line = after.line := by
    unfold advance
    split <;> rfl
  calc advance (before.fed input) (after.fed rest)
      = (advance before after).displaced rest after.line :=
        advance_displaced before after _ rest _ _
    _ = (advance before after).displaced rest (advance before after).line := by rw [line]

def Step.map (f : Machine → Machine) : Step → Step
  | .ended => .ended
  | .next m => .next (f m)
  | .interrupted m => .interrupted (f m)
  | .failed e m => .failed e (f m)

theorem step_fed {i : Instruction} (fetched : p.fetch? m = some i)
    (count : i.operands.length = i.opcode.arity)
    (agrees : i.opcode = .read → inputLine m.input 0 = inputLine input 0) :
    step p (m.fed input) = (step p m).map (·.fed (inputAfter i.opcode input)) := by
  have again : p.fetch? (m.fed input) = some i := fetched
  have commanded := command_fed count agrees
  unfold step
  rw [fetched, again]
  simp only [execute, EStateM.run_bind, commanded]
  cases (command i.opcode i.operands).run m with
  | ok u n => exact congrArg Step.next (advance_fed m (account i n) _)
  | error e n => cases e <;> rfl

theorem EndsAt.run_succ {m' : Machine} {o : Outcome} (ends : EndsAt p m o m') (n : Nat) :
    run p (n + 1) m = (o, m') := by
  cases ends with
  | ended stepped => rw [run, stepped]
  | interrupted _ stepped => rw [run, stepped]
  | failed _ _ stepped => rw [run, stepped]

/-- The instructions that a run begins in a number of steps, the last of which may fail. -/
def begun (p : Program) : Nat → Machine → List Instruction
  | 0, _ => []
  | n + 1, m =>
    match p.fetch? m with
    | none => []
    | some i => i :: match step p m with
      | .next m' => begun p n m'
      | _ => []

def readsIn (p : Program) (n : Nat) (m : Machine) : Nat := (begun p n m).countP (·.opcode = .read)

/-- Every instruction has as many operands as its command takes. -/
def Regular (p : Program) : Prop := ∀ n i, p.at? n = some i → i.operands.length = i.opcode.arity

theorem inputLine_inputAfter (c : Opcode) (s : List Char) (k : Nat) :
    inputLine (inputAfter c s) k = inputLine s (k + if c = .read then 1 else 0) := by
  unfold inputAfter
  split
  · exact inputLine_takeLine s k
  · rfl

theorem behindLines_inputAfter (c : Opcode) (k : Nat) (s : List Char) :
    behindLines k (inputAfter c s) = behindLines (k + if c = .read then 1 else 0) s := by
  unfold inputAfter
  split
  · exact (behindLines_succ k s).symm
  · rfl

theorem step_input {i : Instruction} (fetched : p.fetch? m = some i)
    (count : i.operands.length = i.opcode.arity) :
    ((step p m).machine m).input = inputAfter i.opcode m.input := by
  have self : step p m = (step p m).map (·.fed (inputAfter i.opcode m.input)) :=
    step_fed fetched count fun _ => rfl
  cases stepped : step p m with
  | ended =>
    rw [step_ended.mp stepped] at fetched
    contradiction
  | next n =>
    rw [stepped] at self
    have same := congrArg Machine.input (Step.next.inj self)
    exact same
  | interrupted n =>
    rw [stepped] at self
    have same := congrArg Machine.input (Step.interrupted.inj self)
    exact same
  | failed e n =>
    rw [stepped] at self
    have same := congrArg Machine.input (Step.failed.inj self).2
    exact same

theorem readsIn_of_past (past : p.fetch? m = none) (n : Nat) : readsIn p n m = 0 := by
  cases n with
  | zero => rfl
  | succ n => simp [readsIn, begun, past]

theorem readsIn_of_next {i : Instruction} {m' : Machine} (fetched : p.fetch? m = some i)
    (stepped : step p m = .next m') (n : Nat) :
    readsIn p (n + 1) m = readsIn p n m' + if i.opcode = .read then 1 else 0 := by
  simp [readsIn, begun, fetched, stepped, List.countP_cons]

theorem readsIn_of_stop {i : Instruction} (fetched : p.fetch? m = some i) (stops : next? p m = none)
    (n : Nat) : readsIn p (n + 1) m = if i.opcode = .read then 1 else 0 := by
  unfold next? at stops
  cases stepped : step p m with
  | next m' => simp [stepped] at stops
  | ended | interrupted _ | failed _ _ => simp [readsIn, begun, fetched, stepped, List.countP_cons]

/-- What a run has made of its input it makes of another input that begins with the same lines. -/
structure Retraces (p : Program) (n : Nat) (m : Machine) (input : List Char) : Prop where
  ends : run p n (m.fed input) = ((run p n m).1,
    (run p n m).2.fed (behindLines (readsIn p n m) input))
  reads : readsIn p n (m.fed input) = readsIn p n m
  rest : (run p n m).2.input = behindLines (readsIn p n m) m.input

theorem Retraces.of_past (past : p.fetch? m = none) (n : Nat) : Retraces p (n + 1) m input := by
  have again : p.fetch? (m.fed input) = none := past
  have ends : EndsAt p m .finished m := .ended (step_ended.mpr past)
  have ends' : EndsAt p (m.fed input) .finished (m.fed input) := .ended (step_ended.mpr again)
  refine ⟨?_, ?_, ?_⟩
  · rw [ends.run_succ, ends'.run_succ, readsIn_of_past past, behindLines_zero]
  · rw [readsIn_of_past past, readsIn_of_past again]
  · rw [ends.run_succ, readsIn_of_past past, behindLines_zero]

theorem Retraces.of_next {i : Instruction} {m' : Machine} {n : Nat} (fetched : p.fetch? m = some i)
    (stepped : step p m = .next m')
    (again : step p (m.fed input) = .next (m'.fed (inputAfter i.opcode input)))
    (kept : m'.input = inputAfter i.opcode m.input)
    (later : Retraces p n m' (inputAfter i.opcode input)) : Retraces p (n + 1) m input := by
  have fetched' : p.fetch? (m.fed input) = some i := fetched
  refine ⟨?_, ?_, ?_⟩
  · rw [run, again, run, stepped, readsIn_of_next fetched stepped, ← behindLines_inputAfter]
    exact later.ends
  · rw [readsIn_of_next fetched' again, readsIn_of_next fetched stepped, later.reads]
  · rw [run, stepped, readsIn_of_next fetched stepped, ← behindLines_inputAfter, ← kept]
    exact later.rest

theorem Retraces.of_end {i : Instruction} {m' : Machine} {o : Outcome} (n : Nat)
    (fetched : p.fetch? m = some i) (ends : EndsAt p m o m')
    (again : EndsAt p (m.fed input) o (m'.fed (inputAfter i.opcode input)))
    (kept : m'.input = inputAfter i.opcode m.input) : Retraces p (n + 1) m input := by
  have fetched' : p.fetch? (m.fed input) = some i := fetched
  have after (s : List Char) :
      behindLines (if i.opcode = .read then 1 else 0) s = inputAfter i.opcode s := by
    have none := behindLines_inputAfter i.opcode 0 s
    rwa [behindLines_zero, Nat.zero_add, eq_comm] at none
  have counted := readsIn_of_stop fetched ends.next?_eq_none n
  refine ⟨?_, ?_, ?_⟩
  · rw [ends.run_succ, again.run_succ, counted, after]
  · rw [counted, readsIn_of_stop fetched' again.next?_eq_none]
  · rw [ends.run_succ, counted, after, kept]

theorem run_retraces (regular : Regular p) {n : Nat}
    (agrees : ∀ k < readsIn p n m, inputLine m.input k = inputLine input k) :
    Retraces p n m input := by
  induction n generalizing m input with
  | zero => exact ⟨by simp [run, readsIn, begun, behindLines_zero], rfl, (behindLines_zero _).symm⟩
  | succ n ih =>
    cases fetched : p.fetch? m with
    | none => exact .of_past fetched _
    | some i =>
      have count := regular m.pc i fetched
      have first (reads : i.opcode = .read) : inputLine m.input 0 = inputLine input 0 := by
        refine agrees 0 ?_
        simp [readsIn, begun, fetched, reads]
      have again := step_fed fetched count first
      have kept := step_input fetched count
      cases stepped : step p m with
      | ended =>
        rw [step_ended.mp stepped] at fetched
        contradiction
      | next m' =>
        rw [stepped] at again kept
        refine .of_next fetched stepped again kept (ih fun k inside => ?_)
        have told := agrees (k + if i.opcode = .read then 1 else 0) (by
          rw [readsIn_of_next fetched stepped]
          omega)
        rw [← inputLine_inputAfter, ← inputLine_inputAfter, ← kept] at told
        exact told
      | interrupted m' =>
        rw [stepped] at again kept
        exact .of_end n fetched (.interrupted m' stepped) (.interrupted _ again) kept
      | failed f m' =>
        rw [stepped] at again kept
        exact .of_end n fetched (.failed f m' stepped) (.failed f _ again) kept

theorem regular_of_load {code : String} (loaded : Program.load code = .ok p) : Regular p :=
  fun _ _ found => (Program.load_written loaded found).count

/-- Two runs that end alike, but for the input that each of them has left. -/
def AlikeButInput (first second : Outcome × Machine) : Prop :=
  second.1 = first.1 ∧ second.2 = { first.2 with input := second.2.input }

/-- Whatever input begins with the lines for which a run has come to a read command gives the same
run up to there, and each such command has used up one line, also if it failed. -/
theorem input_taken_line_by_line {code : String} {p : Program} (loaded : Program.load code = .ok p)
    (s t : String) (interruptOn : Option Text) :
    let first n := run p n (p.start s interruptOn)
    let second n := run p n (p.start t interruptOn)
    let reads n := readsIn p n (p.start s interruptOn)
    (∀ k n, (∀ j < k, inputLine s.toList j = inputLine t.toList j) → reads n ≤ k →
      AlikeButInput (first n) (second n) ∧ readsIn p n (p.start t interruptOn) = reads n ∧
      (first n).2.input = behindLines (reads n) s.toList ∧
      (second n).2.input = behindLines (reads n) t.toList) ∧
    ((∀ n, reads n = 0) → ∀ n, AlikeButInput (first n) (second n)) := by
  intro first second reads
  have regular := regular_of_load loaded
  have retraced (k n : Nat) (agree : ∀ j < k, inputLine s.toList j = inputLine t.toList j)
      (few : reads n ≤ k) : Retraces p n (p.start s interruptOn) t.toList :=
    run_retraces regular fun j inside => agree j (Nat.lt_of_lt_of_le inside few)
  have alike {n : Nat} (same : Retraces p n (p.start s interruptOn) t.toList) :
      AlikeButInput (first n) (second n) ∧ (second n).2.input = behindLines (reads n) t.toList := by
    have ends : second n = ((first n).1, (first n).2.fed (behindLines (reads n) t.toList)) :=
      same.ends
    rw [ends]
    exact ⟨⟨rfl, rfl⟩, rfl⟩
  refine ⟨fun k n agree few => ?_, fun none n => ?_⟩
  · have same := retraced k n agree few
    exact ⟨(alike same).1, same.reads, same.rest, (alike same).2⟩
  · have same := retraced 0 n (fun _ inside => absurd inside (Nat.not_lt_zero _))
      (Nat.le_of_eq (none n))
    exact (alike same).1

/-- Reads two numbers, the second of them into a variable that is not there. -/
def readsTwice : Program where
  instructions :=
    let x : Operand := .var ⟨.globals, true, true⟩ "x"
    let y : Operand := .var ⟨.globals, true, true⟩ "y"
    #[⟨.defVar, [x], 2, "DEFVAR GF@x"⟩,
      ⟨.read, [x, .dataType .int], 3, "READ GF@x int"⟩,
      ⟨.write, [x], 4, "WRITE GF@x"⟩,
      ⟨.read, [y, .dataType .int], 5, "READ GF@y int"⟩]

def readsTwiceCode : String := ".IFJcode17\nDEFVAR GF@x\nREAD GF@x int\nWRITE GF@x\nREAD GF@y int\n"

theorem readsTwice_loads : Program.load readsTwiceCode = .ok readsTwice :=
  eq_ok_of_toOption (by decide +kernel)

/-- Two lines are used up, although the second of them goes nowhere; the third does not count. -/
theorem readsTwice_alike :
    Program.load readsTwiceCode = .ok readsTwice ∧
    (∀ j < 2, inputLine "7\n8\n9".toList j = inputLine "7\n8".toList j) ∧
    readsIn readsTwice 5 (readsTwice.start "7\n8\n9" none) = 2 ∧
    AlikeButInput (run readsTwice 5 (readsTwice.start "7\n8\n9" none))
      (run readsTwice 5 (readsTwice.start "7\n8" none)) ∧
    (run readsTwice 5 (readsTwice.start "7\n8\n9" none)).2.input = ['9'] := by
  have agree : ∀ j < 2, inputLine "7\n8\n9".toList j =
      inputLine "7\n8".toList j := by decide +kernel
  have reads : readsIn readsTwice 5 (readsTwice.start "7\n8\n9" none) = 2 := by decide +kernel
  obtain ⟨alike, -, rest, -⟩ :=
    (input_taken_line_by_line readsTwice_loads "7\n8\n9" "7\n8" none).1 2 5 agree
      (Nat.le_of_eq reads)
  dsimp only at alike rest
  rw [reads] at rest
  refine ⟨readsTwice_loads, agree, reads, alike, ?_⟩
  rw [rest]
  decide

end Machine
end TacBench
