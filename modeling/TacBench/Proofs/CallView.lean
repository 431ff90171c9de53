import TacBench.Proofs.Breakpoints
import TacBench.Proofs.Placement
import TacBench.Proofs.VariablesView

/-! The view of the calls. At every pause it has one row for the instruction that comes next and one
for each call that has not returned, the newest first, each with its line. Which row stands for the
next instruction is told by its position, and a recursive program pauses at the position of an open
call: then that call is shown without the label it called. -/
namespace TacBench

namespace Machine

variable {p : Program} {start m : Machine} {k : Nat}

theorem reached_of_stateAt (reached : stateAt p start k = some m) :
    Machine.reached p start k = m := by
  have started := run_of_stateAt reached 0
  rw [Nat.add_zero] at started
  rw [Machine.reached, started]
  rfl

/-- What holds of the machine at a pause. -/
structure Paused (p : Program) (m : Machine) : Prop where
  next : ∃ i, p.fetch? m = some i
  placed : Placed p m
  orderly : m.Orderly

theorem Paused.of_stateAt (placed : Placed p start) (orderly : start.Orderly)
    (reached : stateAt p start k = some m) (more : (p.fetch? m).isSome) : Paused p m where
  next := Option.isSome_iff_exists.mp more
  placed := reached_of_stateAt reached ▸ run_placed placed k
  orderly := reached_of_stateAt reached ▸ reached_orderly p orderly k

end Machine

namespace Debug.Session

variable {p : Program} {m : Machine} {code : String}

/-- The session whose newest reply shows a machine still debugs the program, and pauses there. -/
theorem paused_of_lastReply? (loaded : Program.load code = .ok p) (s : Session)
    (unstopped : s.stopOn = none) (fuel : Nat) (breakpoints : List Int) (requests : List Request)
    (paused : lastReply? (s.conversation fuel code breakpoints requests).1 = some (.ok (some m))) :
    Machine.Paused p m ∧ (s.conversation fuel code breakpoints requests).2.program = some p := by
  let start := s.attach (p.start "" none)
  have placed : Machine.Placed p start := by
    obtain ⟨nonneg, within, calls, table⟩ := Machine.start_placed p "" none
    exact ⟨nonneg, within, calls, table⟩
  have orderly : start.Orderly := by
    intro f member
    obtain rfl : f = [] := by simpa [start, Machine.frames, attach, Program.start] using member
    exact List.nodup_nil
  rw [conversation_eq loaded] at paused ⊢
  have opened : Stands p start none (s.opened p breakpoints) :=
    .waits (opened_waits p unstopped breakpoints) fun m same => by cases same
  have stands := opened.performAll (.breakpoint fuel :: requests)
  change Stands p start (lastReply? _) _ at stands
  rw [paused] at stands
  cases stands with
  | past past silent => exact absurd rfl (silent m)
  | waits waiting pause =>
    obtain ⟨k, rfl, reached, more⟩ := pause m rfl
    obtain ⟨w, -, standing⟩ := waiting
    exact ⟨.of_stateAt placed orderly reached more, standing.loaded⟩

end Debug.Session

theorem Debug.Worker.settle_paused {p : Program} {m : Machine} {i : Instruction} {s : Session}
    (current : s.program = some p) (found : p.at? m.pc = some i) :
    settle (.ok (some m), s) = (none, [.line i.index, .paused m], s) := by
  simp only [settle, guarded, currentLine, current, Program.lineAt?_of_at? found]

namespace Editor

open Debug (Request)
open Debug.Session (lastReply?)

variable {p : Program} {m : Machine} {c : Int} {i : Instruction}

/-- The source line of the instruction at a position. -/
def sourceLine (p : Program) (c : Int) : Int := ((p.at? c).map (·.index)).getD 0

/-- The label that the instruction at a position calls. -/
def calledLabel (p : Program) (c : Int) : String :=
  (((p.at? c).bind (·.operands.head?)).bind Program.labelOf).getD ""

/-- The next instruction and the open calls as they should be shown. -/
def faithfulRows (p : Program) (m : Machine) : List CallRow :=
  ⟨sourceLine p m.pc, ""⟩ :: m.calls.map fun c => ⟨sourceLine p c, calledLabel p c⟩

/-- The rows that are shown: a call at the position of the next instruction loses its label. -/
def shownRows (p : Program) (m : Machine) : List CallRow :=
  ⟨sourceLine p m.pc, ""⟩ :: m.calls.map fun c =>
    ⟨sourceLine p c, if c = m.pc then "" else calledLabel p c⟩

theorem callRow_pc (found : p.at? m.pc = some i) :
    callRow p m.pc m.pc = .ok ⟨sourceLine p m.pc, ""⟩ := by
  simp only [callRow, Program.lineAt?_of_at? found, ↓reduceIte, sourceLine, found, Option.map_some,
    Option.getD_some]

theorem callRow_call {o : Operand} (found : p.at? c = some i) (operand : i.operands = [o]) :
    callRow p m.pc c = .ok ⟨sourceLine p c, if c = m.pc then "" else calledLabel p c⟩ := by
  obtain ⟨nonneg, -⟩ := Program.at?_bounds found
  have same := found
  rw [Program.at?, if_neg (Int.not_lt.mpr nonneg)] at same
  simp only [callRow, Program.lineAt?_of_at? found, sourceLine, calledLabel, found, same, operand,
    Option.map_some, Option.getD_some, Option.bind_some, List.head?_cons]
  split <;> rfl

theorem mapM_ok {α β ε : Type} {f : α → Except ε β} {g : α → β} {xs : List α}
    (each : ∀ x ∈ xs, f x = .ok (g x)) :
    xs.mapM f = .ok (xs.map g) := by
  induction xs with
  | nil => rfl
  | cons x xs ih =>
    rw [List.mapM_cons, each x List.mem_cons_self, ih fun y later =>
      each y (List.mem_cons_of_mem x later)]
    rfl

/-- The rows of a machine whose positions are those of its program. -/
theorem callRows_eq (next : p.at? m.pc = some i)
    (calls : ∀ c ∈ m.calls, ∃ i o, p.at? c = some i ∧ i.operands = [o]) :
    callRows p m = .ok (shownRows p m) := by
  let row (c : Int) : CallRow := ⟨sourceLine p c, if c = m.pc then "" else calledLabel p c⟩
  have each : ∀ c ∈ m.calls.reverse ++ [m.pc], callRow p m.pc c = .ok (row c) := by
    intro c member
    rcases List.mem_append.mp member with called | current
    · obtain ⟨i, o, found, operand⟩ := calls c (List.mem_reverse.mp called)
      exact callRow_call found operand
    · rw [List.mem_singleton.mp current, callRow_pc next]
      simp only [row, ↓reduceIte]
  have rows : ((m.calls.reverse ++ [m.pc]).map row).reverse = shownRows p m := by
    simp [shownRows, row]
  rw [callRows, mapM_ok each, ← rows]
  rfl

theorem shownRows_eq_iff : shownRows p m = faithfulRows p m ↔ ∀ c ∈ m.calls, c = m.pc →
    calledLabel p c = "" := by
  simp only [shownRows, faithfulRows, List.cons.injEq, true_and, List.map_inj_left,
    CallRow.mk.injEq]
  refine forall₂_congr fun c _ => ?_
  split
  · rename_i same
    exact ⟨fun lost _ => lost.symm, fun lost => (lost same).symm⟩
  · rename_i other
    exact ⟨fun _ same => absurd same other, fun _ => rfl⟩

/-- The call at a position of which a machine has to keep track. -/
theorem call_of_placed {code : String} (loaded : Program.load code = .ok p) (placed : m.Placed p)
    (called : c ∈ m.calls) :
    ∃ i o, p.at? c = some i ∧ i.opcode = .call ∧ i.operands = [o] := by
  obtain ⟨i, found, opcode⟩ := placed.calls c called
  have count := (Program.load_written loaded found).count
  rw [opcode] at count
  obtain ⟨o, operand⟩ := List.length_eq_one_iff.mp count
  exact ⟨i, o, found, opcode, operand⟩

/-- At a pause the rows can be made. -/
theorem callRows_paused {code : String} (loaded : Program.load code = .ok p) (paused : m.Paused p) :
    callRows p m = .ok (shownRows p m) := by
  obtain ⟨⟨i, next⟩, placed, -⟩ := paused
  refine callRows_eq (p.fetch?_eq m ▸ next) fun c called => ?_
  obtain ⟨i, o, found, -, operand⟩ := call_of_placed loaded placed called
  exact ⟨i, o, found, operand⟩

namespace DebugPanel

section Paused

variable {q : DebugPanel} {after : Debug.Session} (current : after.program = some p)
  (found : p.at? m.pc = some i)
include current found

theorem settle_readable (rows : callRows p m = .ok (shownRows p m)) (readable : m.Readable) :
    ∃ outline, q.settle (.ok (some m), after) = (none, [.line i.index, .calls (shownRows p m)],
      { q with session := after, outline, line := i.index, calls := shownRows p m }) := by
  obtain ⟨_, outline, shown⟩ := (Showing.machine_asks q.find m q.outline).mpr readable
  refine ⟨outline, ?_⟩
  simp only [settle, Debug.Worker.settle_paused current found, follow, answerAll, answer,
    showMachine, shown, current, rows]
  rfl

theorem settle_unreadable (unreadable : ¬ m.Readable) :
    ∃ f outline, q.settle (.ok (some m), after) = (some (.value f), [.line i.index],
      { q with session := after, outline, line := i.index }) := by
  cases shown : (Showing.machine q.find m).run q.outline with
  | ok u outline =>
    exact absurd ((Showing.machine_asks q.find m q.outline).mp ⟨u, outline, shown⟩) unreadable
  | error f outline =>
    refine ⟨f, outline, ?_⟩
    simp only [settle, Debug.Worker.settle_paused current found, follow, answerAll, answer,
      showMachine, shown]
    rfl

end Paused

/-- At every pause of a program that is debugged the panel shows the line of the next instruction
without a label and below it the lines of the open calls, the newest first, each with the label that
it called, unless the call stands at the position of the next instruction: then its label is
missing. If a value has no text, the panel stops there and keeps the rows it has shown before. -/
theorem call_view_exact {code : String} {p : Program} (loaded : Program.load code = .ok p)
    (q : DebugPanel) (unstopped : q.session.stopOn = none) (fuel : Nat) (requests : List Request)
    {m : Machine}
    (paused : lastReply? (q.session.conversation fuel code q.session.breakpoints requests).1 =
      some (.ok (some m))) :
    let after := (q.session.conversation fuel code q.session.breakpoints requests).2
    (∃ i, p.fetch? m = some i ∧ sourceLine p m.pc = i.index) ∧
    (∀ c ∈ m.calls, ∃ i o, p.at? c = some i ∧ i.opcode = .call ∧ i.operands = [o] ∧
      sourceLine p c = i.index ∧ calledLabel p c = (Program.labelOf o).getD "") ∧
    callRows p m = .ok (shownRows p m) ∧
    (m.Readable → (q.settle (.ok (some m), after)).2.1 =
      [.line (sourceLine p m.pc), .calls (shownRows p m)]) ∧
    (¬ m.Readable → ∃ f outline, q.settle (.ok (some m), after) =
      (some (.value f), [.line (sourceLine p m.pc)],
        { q with session := after, outline, line := sourceLine p m.pc })) ∧
    (shownRows p m = faithfulRows p m ↔ ∀ c ∈ m.calls, c = m.pc → calledLabel p c = "") := by
  intro after
  obtain ⟨paused, current⟩ :=
    Debug.Session.paused_of_lastReply? loaded q.session unstopped fuel _ requests paused
  have rows := callRows_paused loaded paused
  obtain ⟨⟨i, next⟩, placed, -⟩ := paused
  have found : p.at? m.pc = some i := p.fetch?_eq m ▸ next
  have line : sourceLine p m.pc = i.index := by rw [sourceLine, found]; rfl
  refine ⟨⟨i, next, line⟩, ?_, rows, ?_, ?_, shownRows_eq_iff⟩
  · intro c called
    obtain ⟨i, o, found, opcode, operand⟩ := call_of_placed loaded placed called
    refine ⟨i, o, found, opcode, operand, ?_, ?_⟩
    · rw [sourceLine, found]
      rfl
    · simp only [calledLabel, found, operand, Option.bind_some, List.head?_cons]
  · intro readable
    obtain ⟨outline, shown⟩ := settle_readable (q := q) current found rows readable
    rw [shown, line]
  · intro unreadable
    rw [line]
    exact settle_unreadable current found unreadable

/-- A function that calls itself without end. -/
def endlessCall : Program where
  instructions :=
    #[⟨.call, [.label "f"], 2, "CALL f"⟩,
      ⟨.label, [.label "f"], 3, "LABEL f"⟩,
      ⟨.call, [.label "f"], 4, "CALL f"⟩]

def endlessCallCode : String := ".IFJcode17\nCALL f\nLABEL f\nCALL f\n"

theorem endlessCall_loads : Program.load endlessCallCode = .ok endlessCall :=
  eq_ok_of_toOption (by decide +kernel)

/-- A panel with a breakpoint on the inner call. -/
def onInnerCall : DebugPanel where
  session := { breakpoints := [4] }

/-- The machine when the inner call comes for the second time. -/
def secondRound : Machine := Machine.reached endlessCall (endlessCall.start "" none) 4

theorem endlessCall_shown :
    Program.load endlessCallCode = .ok endlessCall ∧
    lastReply? (onInnerCall.session.conversation 9 endlessCallCode [4] [.breakpoint 9]).1 =
      some (.ok (some secondRound)) ∧
    secondRound.pc = 2 ∧ secondRound.calls = [2, 0] ∧ secondRound.Readable ∧
    callRows endlessCall secondRound = .ok [⟨4, ""⟩, ⟨4, ""⟩, ⟨2, "f"⟩] ∧
    (onInnerCall.settle (.ok (some secondRound),
      (onInnerCall.session.conversation 9 endlessCallCode [4] [.breakpoint 9]).2)).2.1 =
        [.line 4, .calls [⟨4, ""⟩, ⟨4, ""⟩, ⟨2, "f"⟩]] := by
  have replied :
      (lastReply? (onInnerCall.session.conversation 9 endlessCallCode [4] [.breakpoint 9]).1).bind
      Except.toOption = some (some secondRound) := by
    rw [Debug.Session.conversation_eq endlessCall_loads]
    decide +kernel
  have paused : lastReply? (onInnerCall.session.conversation 9 endlessCallCode [4]
      [.breakpoint 9]).1 =
      some (.ok (some secondRound)) := by
    obtain ⟨reply, last, shown⟩ := Option.bind_eq_some_iff.mp replied
    rw [last, eq_ok_of_toOption shown]
  have readable : secondRound.Readable := by decide +kernel
  obtain ⟨-, -, rows, shown, -, -⟩ :=
    call_view_exact endlessCall_loads onInnerCall rfl 9 [.breakpoint 9] paused
  have listed : shownRows endlessCall secondRound = [⟨4, ""⟩, ⟨4, ""⟩,
      ⟨2, "f"⟩] := by decide +kernel
  have line : sourceLine endlessCall secondRound.pc = 4 := by decide +kernel
  have sent := shown readable
  rw [listed] at rows sent
  rw [line] at sent
  exact ⟨endlessCall_loads, paused, by decide +kernel, by decide +kernel, readable, rows, sent⟩

/-- The open call on line 4 has called `f`, and its row says nothing of it while the machine waits
at that call again. -/
theorem recursive_call_loses_label :
    faithfulRows endlessCall secondRound = [⟨4, ""⟩, ⟨4, "f"⟩, ⟨2, "f"⟩] ∧
    (callRows endlessCall secondRound).toOption = some [⟨4, ""⟩, ⟨4, ""⟩, ⟨2, "f"⟩] ∧
    ((onInnerCall.debug 9 endlessCallCode).2.2.nextBreakpoint 9).2.1 =
      [.line 4, .calls [⟨4, ""⟩, ⟨4, ""⟩, ⟨2, "f"⟩]] := by
  refine ⟨?_, ?_, ?_⟩
  · decide +kernel
  · decide +kernel
  · decide +kernel

end DebugPanel
end Editor
end TacBench
