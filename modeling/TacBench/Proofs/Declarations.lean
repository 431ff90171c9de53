import TacBench.Proofs.Loaded
import TacBench.Proofs.Phases

/-! The discipline of declaration. Names come into a frame by declaration only, a variable that has
a value keeps having one while its frame is there, and the data stack holds values only. One input
breaks it: a truth value that is spelled with a long s is recognised and has no value, and storing
it declares the variable or takes its value away. -/
namespace TacBench

namespace Text

/-- Ignoring case is the same as taking small letters, but for the letters i, k and s. -/
theorem toLower_of_foldAscii {c x : Char} (folded : foldAscii c = x) (i : x ≠ 'i') (k : x ≠ 'k') :
    c.toLower = x ∨ x = 's' ∧ c = 'ſ' := by
  unfold foldAscii at folded
  dsimp only at folded
  split at folded
  · rename_i capital
    have table : ∀ n, n < 91 → 65 ≤ n → (Char.ofNat n).toLower = Char.ofNat (n + 32) := by decide
    have lowered := table c.toNat (by omega) capital.1
    rw [Char.ofNat_toNat, folded] at lowered
    exact .inl lowered
  · rename_i other
    have same : c.toLower = c := by
      unfold Char.toLower
      exact dif_neg other
    split at folded
    · exact absurd folded.symm i
    · split at folded
      · exact absurd folded.symm k
      · split at folded
        · rename_i long
          refine .inr ⟨folded.symm, ?_⟩
          rw [← Char.ofNat_toNat c, long]
        · exact .inl (same.trans folded)

end Text

namespace Machine

variable {p : Program} {c : Opcode} {operands : List Operand} {m m' x y : Machine} {i : Instruction}
  {kind : FrameKind} {d d' : Frame} {name : String} {v : Value} {h : Nat} {text : List Char}

/-- A text that begins with `false` in any letter case, with a long s. -/
def LongFalse (text : List Char) : Prop :=
  Text.spells ['f', 'a', 'l', 's', 'e'] (text.take 5) = true ∧ text[3]? = some 'ſ'

theorem spells_false (spelled : Text.spells ['f', 'a', 'l', 's', 'e'] (text.take 5) = true) :
    ∃ f a l s e rest, text = f :: a :: l :: s :: e :: rest ∧ Text.foldAscii f = 'f' ∧
      Text.foldAscii a = 'a' ∧ Text.foldAscii l = 'l' ∧ Text.foldAscii s = 's' ∧
      Text.foldAscii e = 'e' := by
  rcases text with _ | ⟨f, _ | ⟨a, _ | ⟨l, _ | ⟨s, _ | ⟨e, rest⟩⟩⟩⟩⟩
  all_goals simp [Text.spells] at spelled
  exact ⟨f, a, l, s, e, rest, rfl, spelled⟩

/-- Every other text gives a truth value. -/
theorem truthInput_eq_none : truthInput text = .none ↔ LongFalse text := by
  constructor
  · intro missing
    unfold truthInput at missing
    split at missing
    · cases missing
    · split at missing
      · rename_i spelled
        split at missing
        · cases missing
        · rename_i different
          refine ⟨spelled, ?_⟩
          obtain ⟨f, a, l, s, e, rest, rfl, hf, ha, hl, hs, he⟩ := spells_false spelled
          rcases Text.toLower_of_foldAscii hs (by decide) (by decide) with small | ⟨-, long⟩
          · have plain {c x : Char} (folded : Text.foldAscii c = x)
                (other : x ≠ 'i' ∧ x ≠ 'k' ∧ x ≠ 's') : c.toLower = x :=
              (Text.toLower_of_foldAscii folded other.1 other.2.1).resolve_right
                fun long => other.2.2 long.1
            refine absurd ?_ different
            simp [plain hf (by decide), plain ha (by decide), plain hl (by decide), small,
              plain he (by decide)]
          · exact congrArg some long
      · cases missing
  · rintro ⟨spelled, long⟩
    obtain ⟨f, a, l, s, e, rest, rfl, hf, -⟩ := spells_false spelled
    have long : s = 'ſ' := Option.some.inj long
    subst long
    have other : ¬ Text.spells ['t', 'r', 'u', 'e'] [f, a, l, 'ſ'] =
        true := by simp [Text.spells, hf]
    have different : ¬ [f, a, l, 'ſ', e].map Char.toLower = ['f', 'a', 'l', 's', 'e'] := by simp
    exact (if_neg other).trans ((if_pos spelled).trans (if_neg different))

/-- The frames by age: the global one, the local ones from the outermost on, and the temporary one.
Pushing and popping leave a frame where it is. -/
def frames (m : Machine) : List Frame := m.globals :: (m.locals.reverse ++ m.temp.toList)

theorem frames_take (m : Machine) :
    m.frames.take (m.locals.length + 1) = m.globals :: m.locals.reverse := by
  rw [frames, List.take_succ_cons, List.take_left' List.length_reverse]

/-- Where the frame of a kind stands among them, if it is there. -/
def position? (m : Machine) : FrameKind → Option Nat
  | .globals => some 0
  | .locals => if m.locals = [] then none else some m.locals.length
  | .temporary => m.temp.map fun _ => m.locals.length + 1

/-- A frame that is found stands at its position, and there it is changed. -/
theorem frames_of_frameOf (found : frameOf m kind = .ok (some d)) :
    ∃ h, m.position? kind = some h ∧ m.frames[h]? = some d ∧
      ∀ name v, (storeIn kind name v m).frames = m.frames.set h (d.insert name v) := by
  cases kind with
  | globals =>
    cases found
    exact ⟨0, rfl, rfl, fun name v => rfl⟩
  | locals =>
    cases held : m.locals with
    | nil => simp [frameOf, held] at found
    | cons top rest =>
      have same : top = d := by simpa [frameOf, held] using found
      subst same
      refine ⟨rest.length + 1, ?_, ?_, fun name v => ?_⟩
      · simp [position?, held]
      · simp [frames, held]
      · simp [frames, storeIn, held]
  | temporary =>
    have held : m.temp = some d := Except.ok.inj found
    refine ⟨m.locals.length + 1, ?_, ?_, fun name v => ?_⟩
    · simp [position?, held]
    · simp [frames, held]
    · simp [frames, storeIn, held]

theorem frameOf_of_position? (placed : m.position? kind = some h) :
    ∃ d, frameOf m kind = .ok (some d) := by
  cases kind with
  | globals => exact ⟨m.globals, rfl⟩
  | locals =>
    cases held : m.locals with
    | nil => simp [position?, held] at placed
    | cons top rest => exact ⟨top, by simp [frameOf, held]⟩
  | temporary =>
    obtain ⟨d, held, -⟩ := Option.map_eq_some_iff.mp placed
    exact ⟨d, congrArg Except.ok held⟩

theorem SameFrames.frames (same : SameFrames m m') : m'.frames = m.frames := by
  obtain ⟨temp, locals, globals⟩ := same
  rw [Machine.frames, temp, locals, globals, Machine.frames]

/-- The frame at a position has the name. -/
def Named (fs : List Frame) (h : Nat) (name : String) : Prop := ∃ d, fs[h]? = some d ∧ name ∈ d.keys

/-- The frame at a position has a value for the name. -/
def Valued (fs : List Frame) (h : Nat) (name : String) : Prop :=
  ∃ d v, fs[h]? = some d ∧ d.find? name = some v ∧ v ≠ .none

section Store

variable {fs : List Frame} {k : Nat} {stored : String} (there : fs[k]? = some d)
include there

theorem named_of_store (named : Named (fs.set k (d.insert stored v)) h name) :
    Named fs h name ∨ k = h ∧ stored = name := by
  obtain ⟨d', found, member⟩ := named
  by_cases same : k = h
  · subst same
    obtain ⟨bound, -⟩ := List.getElem?_eq_some_iff.mp there
    rw [List.getElem?_set_self bound] at found
    cases found
    rcases Dictionary.mem_keys_insert member with new | old
    · exact .inr ⟨rfl, new.symm⟩
    · exact .inl ⟨d, there, old⟩
  · rw [List.getElem?_set_ne same] at found
    exact .inl ⟨d', found, member⟩

theorem valued_of_store (valued : Valued fs h name) :
    Valued (fs.set k (d.insert stored v)) h name ∨ k = h ∧ stored = name ∧ v = .none := by
  obtain ⟨d', w, found, held, some⟩ := valued
  by_cases same : k = h
  · subst same
    obtain ⟨bound, -⟩ := List.getElem?_eq_some_iff.mp there
    cases there.symm.trans found
    by_cases written : stored = name
    · by_cases missing : v = .none
      · exact .inr ⟨rfl, written, missing⟩
      · refine .inl ⟨_, v, List.getElem?_set_self bound, ?_, missing⟩
        rw [Dictionary.find?_insert, if_pos written]
    · refine .inl ⟨_, w, List.getElem?_set_self bound, ?_, some⟩
      rw [Dictionary.find?_insert, if_neg written, held]
  · rw [← List.getElem?_set_ne same] at found
    exact .inl ⟨d', w, found, held, some⟩

end Store

/-- The variable in the frame at a position is declared, with success. -/
def Declares (p : Program) (m m' : Machine) (h : Nat) (name : String) : Prop :=
  ∃ i f, p.fetch? m = some i ∧ i.opcode = .defVar ∧ i.operands = [.var f name] ∧
    m.position? f.kind = some h ∧ step p m = .next m'

/-- A truth value is read into the variable, and the line that is next has none. -/
def Misreads (p : Program) (m : Machine) (h : Nat) (name : String) : Prop :=
  ∃ i f, p.fetch? m = some i ∧ i.opcode = .read ∧ i.operands = [.var f name, .dataType .bool] ∧
    m.position? f.kind = some h ∧ LongFalse (Text.strip (Text.takeLine m.input).1)

/-- The frame at a position ceases to be: it is the temporary one, and another takes its place. -/
def GivesUp (p : Program) (m : Machine) (h : Nat) : Prop :=
  h = m.locals.length + 1 ∧
    ∃ i, p.fetch? m = some i ∧ (i.opcode = .createFrame ∨ i.opcode = .popFrame ∧ m.locals ≠ [])

/-- What a step does to the frames, by position. -/
inductive Reshapes (p : Program) (x y : Machine) : Prop where
  | keeps (same : y.frames = x.frames)
  | assigns (h : Nat) (name : String) (v : Value) (d : Frame) (found : x.frames[h]? = some d)
      (known : name ∈ d.keys) (some : v ≠ .none) (after : y.frames =
        x.frames.set h (d.insert name v))
  | declares (h : Nat) (name : String) (d : Frame) (found : x.frames[h]? = some d)
      (fresh : name ∉ d.keys) (declared : Declares p x y h name)
      (after : y.frames = x.frames.set h (d.insert name .none))
  | misreads (h : Nat) (name : String) (d : Frame) (found : x.frames[h]? = some d)
      (misread : Misreads p x h name) (after : y.frames = x.frames.set h (d.insert name .none))
  | replaces (new : List Frame) (gone : GivesUp p x (x.locals.length + 1))
      (empty : ∀ d ∈ new, d = []) (after : y.frames = x.frames.take (x.locals.length + 1) ++ new)

theorem Supplied.ne_none (supplied : Supplied operands m v) (constants : .constant .none ∉ operands)
    (held : .none ∉ m.stack) : v ≠ .none := by
  rintro rfl
  cases supplied with
  | computed some => exact some rfl
  | constant written => exact constants written
  | stacked member => exact held member

theorem Reframes.reshapes (altered : Reframes i.opcode i.operands x y)
    (fetched : p.fetch? x = some i) (stepped : step p x = .next y)
    (constants : .constant .none ∉ i.operands) (held : .none ∉ x.stack) : Reshapes p x y := by
  cases altered with
  | keeps same => exact .keeps same.frames
  | assigns f name v d rest named found known supplied same =>
    obtain ⟨h, placed, there, stores⟩ := frames_of_frameOf found
    have after := same.frames.trans (stores name v)
    by_cases missing : v = .none
    · subst missing
      rcases supplied with supplied | ⟨opcode, ⟨target, operands⟩, input⟩
      · exact absurd rfl (supplied.ne_none constants held)
      · obtain ⟨rfl, -⟩ := List.cons.inj (named.symm.trans operands)
        exact .misreads h name d there
          ⟨i, f, fetched, opcode, operands, placed, truthInput_eq_none.mp input⟩ after
    · have declared := Dictionary.contains_iff.mp (known.resolve_right missing)
      exact .assigns h name v d there declared missing after
  | declares f name d opcode named found fresh same =>
    obtain ⟨h, placed, there, stores⟩ := frames_of_frameOf found
    have absent : name ∉ d.keys :=
      fun member => by simp [Dictionary.contains_iff.mpr member] at fresh
    exact .declares h name d there absent ⟨i, f, fetched, opcode, named, placed, stepped⟩
      (same.frames.trans (stores name .none))
  | creates opcode same =>
    refine .replaces [[]] ⟨rfl, i, fetched, .inl opcode⟩ (by simp) (same.frames.trans ?_)
    rw [frames_take]
    rfl
  | pushes top opcode temp same =>
    refine .keeps (same.frames.trans ?_)
    simp [Machine.frames, temp]
  | pops top rest opcode locals same =>
    have high : x.locals ≠ [] := by simp [locals]
    refine .replaces [] ⟨rfl, i, fetched, .inr ⟨opcode, high⟩⟩ (by simp) (same.frames.trans ?_)
    rw [List.append_nil, frames_take, locals, List.reverse_cons]
    rfl

theorem Proceeds.reshapes (proceeds : Proceeds p x y)
    (constants : ∀ {n i}, p.at? n = some i → .constant .none ∉ i.operands)
    (held : .none ∉ x.stack) :
    Reshapes p x y := by
  cases proceeds with
  | rests => exact .keeps rfl
  | stops i f _ fetched ran =>
    cases execute_fails ran with
    | early => exact .keeps rfl
    | interrupted => exact .keeps rfl
  | advances i between fetched ran =>
    have altered := (execute_alters ran).frames.congr (advance_frames x between)
    have stepped := step_next.mpr ⟨i, between, fetched, ran, rfl⟩
    exact altered.reshapes fetched stepped (constants (p.fetch?_eq x ▸ fetched)) held

/-- A name that is new in a frame has been declared or misread. -/
theorem Reshapes.names (shaped : Reshapes p x y) (named : Named y.frames h name) :
    Named x.frames h name ∨ Declares p x y h name ∨ Misreads p x h name := by
  cases shaped with
  | keeps same => exact .inl (same ▸ named)
  | assigns k stored v d there known some after =>
    rw [after] at named
    rcases named_of_store there named with old | ⟨rfl, rfl⟩
    · exact .inl old
    · exact .inl ⟨d, there, known⟩
  | declares k stored d there fresh declared after =>
    rw [after] at named
    rcases named_of_store there named with old | ⟨rfl, rfl⟩
    · exact .inl old
    · exact .inr (.inl declared)
  | misreads k stored d there misread after =>
    rw [after] at named
    rcases named_of_store there named with old | ⟨rfl, rfl⟩
    · exact .inl old
    · exact .inr (.inr misread)
  | replaces new gone empty after =>
    obtain ⟨d, found, member⟩ := named
    rw [after, List.getElem?_append] at found
    split at found
    · rw [List.getElem?_take] at found
      split at found
      · exact .inl ⟨d, found, member⟩
      · cases found
    · cases empty d (List.mem_of_getElem? found)
      cases member

/-- A value is lost with its frame or by a misreading only. -/
theorem Reshapes.values (shaped : Reshapes p x y) (remains : ¬ GivesUp p x h)
    (read : ¬ Misreads p x h name) (valued : Valued x.frames h name) : Valued y.frames h name := by
  cases shaped with
  | keeps same => exact same ▸ valued
  | assigns k stored v d there known some after =>
    rw [after]
    exact (valued_of_store there valued).resolve_right fun lost => some lost.2.2
  | declares k stored d there fresh declared after =>
    rw [after]
    refine (valued_of_store there valued).resolve_right ?_
    rintro ⟨rfl, rfl, -⟩
    obtain ⟨d', w, found, held, -⟩ := valued
    cases there.symm.trans found
    exact fresh (Dictionary.mem_keys_of_find? held)
  | misreads k stored d there misread after =>
    rw [after]
    refine (valued_of_store there valued).resolve_right ?_
    rintro ⟨rfl, rfl, -⟩
    exact read misread
  | replaces new gone empty after =>
    obtain ⟨d, w, found, held, some⟩ := valued
    obtain ⟨bound, -⟩ := List.getElem?_eq_some_iff.mp found
    have low : h < x.locals.length + 1 := by
      have other : h ≠ x.locals.length + 1 := fun same => remains (same ▸ gone)
      have few : x.temp.toList.length ≤ 1 := by cases x.temp <;> simp
      simp only [frames, List.length_cons, List.length_append, List.length_reverse] at bound
      omega
    refine ⟨d, w, ?_, held, some⟩
    rw [after, List.getElem?_append_left (by rw [List.length_take]; omega),
      List.getElem?_take_of_lt low, found]

theorem Restacks.defined (restacked : Restacks c operands m m')
    (constants : .constant .none ∉ operands) (held : .none ∉ m.stack) : .none ∉ m'.stack := by
  cases restacked with
  | takes n rest =>
    rw [rest]
    exact fun member => held (List.mem_of_mem_drop member)
  | pushes v n supplied rest =>
    rw [rest]
    intro member
    rcases List.mem_cons.mp member with new | old
    · exact supplied.ne_none constants held new.symm
    · exact held (List.mem_of_mem_drop old)

section Run

variable (constants : ∀ {n i}, p.at? n = some i → .constant .none ∉ i.operands)
include constants

theorem reached_stack_defined (held : .none ∉ m.stack) (n : Nat) :
    .none ∉ (reached p m n).stack := by
  induction n with
  | zero => exact held
  | succ n ih =>
    rcases (reached_proceeds p m n).alters with rests | ⟨i, fetched, altered⟩
    · rw [rests]
      exact ih
    · exact altered.stack.defined (constants (p.fetch?_eq _ ▸ fetched)) ih

theorem reached_reshapes (held : .none ∉ m.stack) (n : Nat) :
    Reshapes p (reached p m n) (reached p m (n + 1)) :=
  (reached_proceeds p m n).reshapes constants (reached_stack_defined constants held n)

theorem reached_valued (held : .none ∉ m.stack) {a b : Nat} (ordered : a ≤ b)
    (kept : ∀ n, a ≤ n → n < b → ¬ GivesUp p (reached p m n) h ∧
      ¬ Misreads p (reached p m n) h name)
    (valued : Valued (reached p m a).frames h name) : Valued (reached p m b).frames h name := by
  induction ordered with
  | refl => exact valued
  | @step b ordered ih =>
    obtain ⟨remains, read⟩ := kept b ordered (Nat.lt_succ_self b)
    have before := ih fun n low high => kept n low (Nat.lt_succ_of_lt high)
    exact (reached_reshapes constants held b).values remains read before

end Run

/-- A misreading succeeds and leaves the variable without a value, whether or not it was
declared. -/
theorem misread_stores (misread : Misreads p m h name) :
    ∃ d m', m.frames[h]? = some d ∧ step p m = .next m' ∧
      m'.frames = m.frames.set h (d.insert name .none) := by
  obtain ⟨i, f, fetched, opcode, operands, placed, long⟩ := misread
  obtain ⟨d, found⟩ := frameOf_of_position? placed
  obtain ⟨k, same, there, stores⟩ := frames_of_frameOf found
  cases same.symm.trans placed
  have accepted : assignable (m.prepared 0 0 true) f name .none = .ok () := by
    rw [(prepared_frames m 0 0 true).assignable, assignable, found]
    simp
  let stored := (storeIn f.kind name .none (m.prepared 0 0 true)).charged variablePrice
  have commanded : (command i.opcode i.operands).run m = .ok () stored := by
    rw [opcode, operands]
    change (assign (.operand (.var f name))
      (.value (truthInput (Text.strip (Text.takeLine m.input).1)))).run (m.prepared 0 0 true) = _
    rw [truthInput_eq_none.mpr long, assign_value_run, accepted]
  have ran : (execute i).run m = .ok () (account i stored) :=
    execute_ok.mpr ⟨stored, commanded, rfl⟩
  have same := (prepared_frames m 0 0 true).stored f.kind name .none
  have after := (same.trans ⟨rfl, rfl, rfl⟩).trans (advance_frames m (account i stored))
  exact ⟨d, _, there, step_next.mpr ⟨i, _, fetched, ran, rfl⟩,
    after.frames.trans (stores name .none)⟩

/-- In every run of a program that has been loaded the data stack holds values only, a name is new
in a frame only if it has just been declared or misread there, and a variable that has a value has
one as long as its frame is there and nothing is misread into it. -/
theorem declarations_disciplined {code : String} {p : Program} (loaded : Program.load code = .ok p)
    (input : String) (interruptOn : Option Text) :
    let state := reached p (p.start input interruptOn)
    (∀ n, Value.none ∉ (state n).stack) ∧
    (∀ n h name, Named (state (n + 1)).frames h name → Named (state n).frames h name ∨
      Declares p (state n) (state (n + 1)) h name ∨ Misreads p (state n) h name) ∧
    (∀ a b h name, a ≤ b →
      (∀ n, a ≤ n → n < b → ¬ GivesUp p (state n) h ∧ ¬ Misreads p (state n) h name) →
      Valued (state a).frames h name → Valued (state b).frames h name) ∧
    ∀ m h name, Misreads p m h name → ∃ d m', m.frames[h]? = some d ∧ step p m = .next m' ∧
      m'.frames = m.frames.set h (d.insert name .none) := by
  intro state
  have constants {n : Int} {i : Instruction} (found : p.at? n = some i) :=
    Program.load_constants loaded found
  have held : Value.none ∉ (p.start input interruptOn).stack := List.not_mem_nil
  refine ⟨reached_stack_defined constants held, fun n h name => ?_, fun a b h name => ?_, ?_⟩
  · exact (reached_reshapes constants held n).names
  · exact reached_valued constants held
  · exact fun m h name => misread_stores

/-- Three truth values are read into a variable that is never declared. -/
def misreading : Program where
  instructions :=
    let x : Operand := .var ⟨.globals, true, true⟩ "x"
    #[⟨.read, [x, .dataType .bool], 2, "READ GF@x bool"⟩,
      ⟨.read, [x, .dataType .bool], 3, "READ GF@x bool"⟩,
      ⟨.write, [x], 4, "WRITE GF@x"⟩,
      ⟨.read, [x, .dataType .bool], 5, "READ GF@x bool"⟩]

def misreadingCode : String :=
  ".IFJcode17\nREAD GF@x bool\nREAD GF@x bool\nWRITE GF@x\nREAD GF@x bool\n"

def misreadingState (n : Nat) : Machine :=
  reached misreading (misreading.start "falſe\ntrue\nfalſe" none) n

theorem misreading_loads : Program.load misreadingCode = .ok misreading :=
  eq_ok_of_toOption (by decide +kernel)

/-- Between the second and the third reading the variable keeps its value. -/
theorem misreading_keeps_value :
    Program.load misreadingCode = .ok misreading ∧
    Valued (misreadingState 2).frames 0 "x" ∧ Valued (misreadingState 3).frames 0 "x" ∧
    Value.none ∉ (misreadingState 3).stack := by
  obtain ⟨stack, -, keeps, -⟩ := declarations_disciplined misreading_loads "falſe\ntrue\nfalſe" none
  have before : Valued (misreadingState 2).frames 0 "x" :=
    ⟨[("x", .bool true)], .bool true, by decide +kernel, rfl, nofun⟩
  have kept : ∀ n, 2 ≤ n → n < 3 → ¬ GivesUp misreading (misreadingState n) 0 ∧
      ¬ Misreads misreading (misreadingState n) 0 "x" := by
    intro n low high
    obtain rfl : n = 2 := by omega
    have fetched : misreading.fetch? (misreadingState 2) =
        some ⟨.write, [.var ⟨.globals, true, true⟩ "x"], 4, "WRITE GF@x"⟩ := by decide +kernel
    refine ⟨fun gone => absurd gone.1 (by simp), ?_⟩
    rintro ⟨i, f, found, opcode, -⟩
    cases fetched.symm.trans found
    cases opcode
  exact ⟨misreading_loads, before, keeps 2 3 0 "x" (by decide) kept before, stack 3⟩

/-- The first reading declares the variable, and the third takes its value away. -/
theorem misreading_undisciplined :
    Program.load misreadingCode = .ok misreading ∧
    (misreadingState 0).frames = [[]] ∧
    (misreadingState 1).frames = [[("x", .none)]] ∧
    (misreadingState 3).frames = [[("x", .bool true)]] ∧
    (misreadingState 4).frames = [[("x", .none)]] ∧
    ∀ i ∈ misreading.instructions, i.opcode ≠ .defVar ∧ i.opcode ≠ .createFrame ∧
      i.opcode ≠ .popFrame :=
  ⟨misreading_loads,
    by decide +kernel, by decide +kernel, by decide +kernel, by decide +kernel, by decide⟩

end Machine
end TacBench
