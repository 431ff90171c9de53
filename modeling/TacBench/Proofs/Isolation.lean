import Mathlib.Data.List.DropRight
import TacBench.Proofs.Phases

/-! Callers are isolated from what they call. A step reaches no deeper than the top of the stack of
local frames and of the stack of open calls, so whatever lies below is the same for as long as it
lies below. -/
namespace TacBench.Machine

variable {α : Type} {c : Opcode} {operands : List Operand} {p : Program} {m x y : Machine}
  {k a b : Nat}

/-- What a command does to the local frames. -/
inductive Relocates (c : Opcode) (x y : Machine) : Prop where
  | keeps (same : y.locals = x.locals)
  | rewrites (top changed : Frame) (rest : List Frame) (before : x.locals = top :: rest)
      (after : y.locals = changed :: rest)
  | opens (top : Frame) (opcode : c = .pushFrame) (after : y.locals = top :: x.locals)
  | closes (top : Frame) (opcode : c = .popFrame) (before : x.locals = top :: y.locals)
      (held : y.temp = some top)

theorem storeIn_relocates (kind : FrameKind) (name : String) (v : Value)
    (same : SameFrames (storeIn kind name v x) y) : Relocates c x y := by
  obtain ⟨-, locals, -⟩ := same
  cases kind with
  | temporary => exact .keeps locals
  | globals => exact .keeps locals
  | locals =>
    cases held : x.locals with
    | nil =>
      simp only [storeIn, held] at locals
      exact .keeps (locals.trans held.symm)
    | cons top rest =>
      simp only [storeIn, held] at locals
      exact .rewrites top _ rest held locals

theorem Reframes.relocates (altered : Reframes c operands x y) : Relocates c x y := by
  cases altered with
  | keeps same => exact .keeps same.2.1
  | assigns f name v d _ _ _ _ _ same => exact storeIn_relocates f.kind name v same
  | declares f name d _ _ _ _ same => exact storeIn_relocates f.kind name .none same
  | creates opcode same => exact .keeps same.2.1
  | pushes top opcode held same => exact .opens top opcode same.2.1
  | pops top rest opcode held same =>
    obtain ⟨temp, locals, -⟩ := same
    exact .closes top opcode (held.trans (congrArg (top :: ·) locals.symm)) temp

/-- An element on top is not among the outermost. -/
theorem rtake_cons {l : List α} (top : α) (deep : k ≤ l.length) :
    (top :: l).rtake k = l.rtake k := by
  unfold List.rtake
  rw [List.length_cons, Nat.succ_sub deep, List.drop_succ_cons]

theorem Relocates.rtake (moved : Relocates c x y) (before : k < x.locals.length)
    (after : k < y.locals.length) : y.locals.rtake k = x.locals.rtake k := by
  cases moved with
  | keeps same => rw [same]
  | rewrites top changed rest held changes =>
    rw [held, List.length_cons] at before
    rw [held, changes, rtake_cons _ (by omega), rtake_cons _ (by omega)]
  | opens top _ opened => rw [opened, rtake_cons _ (by omega)]
  | closes top _ closed _ => rw [closed, rtake_cons _ (by omega)]

theorem Proceeds.rtake_locals (proceeds : Proceeds p x y) (before : k < x.locals.length)
    (after : k < y.locals.length) : y.locals.rtake k = x.locals.rtake k := by
  rcases proceeds.alters with rfl | ⟨i, -, altered⟩
  · rfl
  · exact altered.frames.relocates.rtake before after

theorem Moves.rtake (moved : Moves c operands x y) (before : k ≤ x.calls.length)
    (after : k ≤ y.calls.length) : y.calls.rtake k = x.calls.rtake k := by
  cases moved with
  | stays _ calls => rw [calls]
  | jumps _ _ _ _ calls => rw [calls]
  | calls _ _ _ _ opened => rw [opened, rtake_cons _ before]
  | returns position _ closed _ => rw [closed, rtake_cons _ after]

theorem Proceeds.rtake_calls (proceeds : Proceeds p x y) (before : k ≤ x.calls.length)
    (after : k ≤ y.calls.length) : y.calls.rtake k = x.calls.rtake k := by
  cases proceeds with
  | rests => rfl
  | stops i f _ fetched ran =>
    have moved := left_of_error ran ▸ (execute_moves i x).1
    exact moved.rtake before after
  | advances i between fetched ran =>
    have moved := left_of_ok ran ▸ (execute_moves i x).1
    rw [advance_calls] at after ⊢
    exact moved.rtake before after

/-- What no step of a segment changes is the same at both ends. -/
theorem rtake_segment (stack : Nat → List α) (ordered : a ≤ b)
    (steps : ∀ n, a ≤ n → n < b → (stack (n + 1)).rtake k = (stack n).rtake k) :
    (stack b).rtake k = (stack a).rtake k := by
  induction ordered with
  | refl => rfl
  | @step b ordered ih =>
    have last := steps b ordered (Nat.lt_succ_self b)
    exact last.trans (ih fun n low high => steps n low (Nat.lt_succ_of_lt high))

theorem rtake_length (l : List α) : l.rtake l.length = l := by
  simp [List.rtake]

section Run

variable (p m)

theorem locals_isolated (ordered : a ≤ b)
    (deep : ∀ n, a ≤ n → n ≤ b → k < (reached p m n).locals.length) :
    (reached p m b).locals.rtake k = (reached p m a).locals.rtake k := by
  refine rtake_segment (fun n => (reached p m n).locals) ordered fun n low high => ?_
  exact (reached_proceeds p m n).rtake_locals (deep n low (Nat.le_of_lt high))
    (deep (n + 1) (Nat.le_succ_of_le low) high)

theorem calls_isolated (ordered : a ≤ b)
    (deep : ∀ n, a ≤ n → n ≤ b → k ≤ (reached p m n).calls.length) :
    (reached p m b).calls.rtake k = (reached p m a).calls.rtake k := by
  refine rtake_segment (fun n => (reached p m n).calls) ordered fun n low high => ?_
  exact (reached_proceeds p m n).rtake_calls (deep n low (Nat.le_of_lt high))
    (deep (n + 1) (Nat.le_succ_of_le low) high)

variable {p m}

/-- Only pushing a frame makes the stack of frames higher. -/
theorem Proceeds.opens (proceeds : Proceeds p x y) (higher : x.locals.length < y.locals.length) :
    (∃ i, p.fetch? x = some i ∧ i.opcode = .pushFrame) ∧ ∃ top, y.locals = top :: x.locals := by
  rcases proceeds.alters with rfl | ⟨i, fetched, altered⟩
  · exact absurd higher (Nat.lt_irrefl _)
  · cases altered.frames.relocates with
    | keeps same =>
      rw [same] at higher
      omega
    | rewrites top changed rest before after =>
      rw [before, after] at higher
      simp at higher
    | opens top opcode after => exact ⟨⟨i, fetched, opcode⟩, top, after⟩
    | closes top _ before _ =>
      rw [before, List.length_cons] at higher
      omega

/-- Only popping a frame makes it lower. The frame becomes the temporary one. -/
theorem Proceeds.closes (proceeds : Proceeds p x y) (lower : y.locals.length < x.locals.length) :
    (∃ i, p.fetch? x = some i ∧ i.opcode = .popFrame) ∧
      ∃ top, x.locals = top :: y.locals ∧ y.temp = some top := by
  rcases proceeds.alters with rfl | ⟨i, fetched, altered⟩
  · exact absurd lower (Nat.lt_irrefl _)
  · cases altered.frames.relocates with
    | keeps same =>
      rw [same] at lower
      omega
    | rewrites top changed rest before after =>
      rw [before, after] at lower
      simp at lower
    | opens top _ after =>
      rw [after, List.length_cons] at lower
      omega
    | closes top opcode before held => exact ⟨⟨i, fetched, opcode⟩, top, before, held⟩

/-- While the stack of frames is higher than before a push, what lies below the pushed frame is what
lay there before. The frame that is on top when the stack is as high as before again has been
popped. -/
theorem pushed_frame_encloses (ordered : a < b)
    (inside : ∀ n, a < n → n ≤ b → (reached p m a).locals.length < (reached p m n).locals.length)
    (back : (reached p m (b + 1)).locals.length = (reached p m a).locals.length) :
    (∃ i, p.fetch? (reached p m a) = some i ∧ i.opcode = .pushFrame) ∧
    (∃ i, p.fetch? (reached p m b) = some i ∧ i.opcode = .popFrame) ∧
    (∀ n, a < n → n ≤ b → (reached p m a).locals <:+ (reached p m n).locals) ∧
    (reached p m (b + 1)).locals = (reached p m a).locals ∧
    ∃ top, (reached p m b).locals = top :: (reached p m a).locals ∧
      (reached p m (b + 1)).temp = some top := by
  have higher := inside (a + 1) (Nat.lt_succ_self a) ordered
  obtain ⟨pushed, top, opened⟩ := (reached_proceeds p m a).opens higher
  have below : ∀ n, a < n → n ≤ b →
      (reached p m n).locals.rtake (reached p m a).locals.length = (reached p m a).locals := by
    intro n low high
    have same := locals_isolated p m low fun j first last => inside j first (last.trans high)
    rw [same, opened, rtake_cons _ (Nat.le_refl _), rtake_length]
  have lower : (reached p m (b + 1)).locals.length < (reached p m b).locals.length :=
    back ▸ inside b ordered (Nat.le_refl b)
  obtain ⟨popped, last, closed, held⟩ := (reached_proceeds p m b).closes lower
  have same : (reached p m (b + 1)).locals = (reached p m a).locals := by
    have outer := below b ordered (Nat.le_refl b)
    rw [closed, ← back, rtake_cons _ (Nat.le_refl _), rtake_length] at outer
    exact outer
  refine ⟨pushed, popped, fun n low high => ?_, same, last, same ▸ closed, held⟩
  rw [← below n low high]
  exact List.drop_suffix _ _

end Run

/-- In every segment of a run the frames and the open calls that are always below the top are those
of its beginning; whatever runs between a push of a frame and the pop that first undoes it, the
frames below are untouched, and the frame that was on top is the temporary one afterwards. -/
theorem callers_isolated (p : Program) (input : String) (interruptOn : Option Text) :
    let state := reached p (p.start input interruptOn)
    (∀ k a b, a ≤ b → (∀ n, a ≤ n → n ≤ b → k < (state n).locals.length) →
      (state b).locals.rtake k = (state a).locals.rtake k) ∧
    (∀ k a b, a ≤ b → (∀ n, a ≤ n → n ≤ b → k ≤ (state n).calls.length) →
      (state b).calls.rtake k = (state a).calls.rtake k) ∧
    ∀ a b, a < b → (∀ n, a < n → n ≤ b → (state a).locals.length < (state n).locals.length) →
      (state (b + 1)).locals.length = (state a).locals.length →
      (∃ i, p.fetch? (state a) = some i ∧ i.opcode = .pushFrame) ∧
      (∃ i, p.fetch? (state b) = some i ∧ i.opcode = .popFrame) ∧
      (∀ n, a < n → n ≤ b → (state a).locals <:+ (state n).locals) ∧
      (state (b + 1)).locals = (state a).locals ∧
      ∃ top, (state b).locals = top :: (state a).locals ∧ (state (b + 1)).temp = some top :=
  ⟨fun _ _ _ => locals_isolated p _, fun _ _ _ => calls_isolated p _,
    fun _ _ => pushed_frame_encloses⟩

/-- Two frames with a variable of the same name, the inner one rewritten while the outer one
waits. -/
def nestedFrames : Program where
  instructions :=
    let temp : Operand := .var ⟨.temporary, true, true⟩ "x"
    let top : Operand := .var ⟨.locals, true, true⟩ "x"
    #[⟨.createFrame, [], 2, "CREATEFRAME"⟩,
      ⟨.defVar, [temp], 3, "DEFVAR TF@x"⟩,
      ⟨.move, [temp, .constant (.bool true)], 4, "MOVE TF@x bool@true"⟩,
      ⟨.pushFrame, [], 5, "PUSHFRAME"⟩,
      ⟨.createFrame, [], 6, "CREATEFRAME"⟩,
      ⟨.defVar, [temp], 7, "DEFVAR TF@x"⟩,
      ⟨.pushFrame, [], 8, "PUSHFRAME"⟩,
      ⟨.move, [top, .constant (.bool false)], 9, "MOVE LF@x bool@false"⟩,
      ⟨.popFrame, [], 10, "POPFRAME"⟩]

theorem nestedFrames_isolated :
    let state := reached nestedFrames (nestedFrames.start "" none)
    (∀ n, 7 ≤ n → n ≤ 8 → 1 < (state n).locals.length) ∧
    (state 7).locals = [[("x", .none)], [("x", .bool true)]] ∧
    (state 8).locals.rtake 1 = (state 7).locals.rtake 1 ∧
    (state 9).locals = (state 6).locals ∧
    ∃ top, (state 8).locals = top :: (state 6).locals ∧ (state 9).temp = some top := by
  intro state
  obtain ⟨locals, -, encloses⟩ := callers_isolated nestedFrames "" none
  have deep : ∀ n, 7 ≤ n → n ≤ 8 → 1 < (state n).locals.length := by
    intro n low high
    obtain rfl | rfl : n = 7 ∨ n = 8 := by omega
    all_goals decide +kernel
  have back : (state 9).locals.length = (state 6).locals.length := by decide +kernel
  obtain ⟨-, -, -, kept⟩ := encloses 6 8 (by decide) deep back
  exact ⟨deep, by decide +kernel, locals 1 7 8 (by decide) deep, kept⟩

end TacBench.Machine
