import Mathlib.Data.List.TakeWhile
import TacBench.Proofs.InputLines
import TacBench.Proofs.SourceLines

/-! The surface of a code. Blank lines, comments, blanks between words and the letter case of
commands, frames, types and truth values change neither whether a code loads nor what its run does,
apart from the lines and spellings that are reported. -/
namespace TacBench

namespace Text

variable {α : Type} {word : String} {s s' : List Char} {c : Char}

/-- What does not tell the two forms of each ASCII letter apart does not see that one is taken for
the other. -/
theorem agrees_toLower {g : Char → α}
    (letters : ∀ n < 91, 65 ≤ n → g (Char.ofNat (n + 32)) = g (Char.ofNat n)) (c : Char) :
    g c.toLower = g c := by
  by_cases capital : 65 ≤ c.toNat ∧ c.toNat ≤ 90
  · have table : ∀ n, n < 91 → 65 ≤ n → (Char.ofNat n).toLower = Char.ofNat (n + 32) := by decide
    have lowered := table c.toNat (by omega) capital.1
    have agreed := letters c.toNat (by omega) capital.1
    rw [Char.ofNat_toNat] at lowered agreed
    rw [lowered, agreed]
  · have same : c.toLower = c := by
      unfold Char.toLower
      exact dif_neg capital
    rw [same]

/-- Texts that differ in the case of their ASCII letters only. -/
def SameLetters (s s' : List Char) : Prop := s.map Char.toLower = s'.map Char.toLower

instance : Decidable (SameLetters s s') := inferInstanceAs (Decidable (_ = _))

theorem upper_eq_of_sameLetters (letters : SameLetters s s') : upper s = upper s' := by
  have small (s : List Char) : upper (s.map Char.toLower) = upper s := by
    have each := agrees_toLower (g := upperChar) (by decide)
    unfold upper
    rw [List.flatMap_map]
    exact congrArg (s.flatMap ·) (funext each)
  rw [← small s, letters, small s']

/-- The text is the word in any letter case. -/
def SpelledAs (word : String) (s : List Char) : Prop := s.map Char.toLower = word.toList

instance : Decidable (SpelledAs word s) := inferInstanceAs (Decidable (_ = _))

theorem SpelledAs.fold (spelled : SpelledAs word s) :
    s.map foldAscii = word.toList.map foldAscii := by
  have each := agrees_toLower (g := foldAscii) (by decide)
  rw [← spelled, List.map_map]
  exact congrArg (s.map ·) (funext fun c => (each c).symm)

theorem SpelledAs.not_mem (spelled : SpelledAs word s) (small : c.toLower = c)
    (other : c ∉ word.toList) :
    c ∉ s := by
  intro member
  have inside : c.toLower ∈ s.map Char.toLower := List.mem_map.mpr ⟨c, member, rfl⟩
  rw [small, spelled] at inside
  exact other inside

theorem bne_of_not_mem (absent : c ∉ s) : ∀ d ∈ s, (d != c) = true :=
  fun _ member => bne_iff_ne.mpr (ne_of_mem_of_not_mem member absent)

end Text

def FrameKind.small : FrameKind → String
  | .globals => "gf"
  | .locals => "lf"
  | .temporary => "tf"

namespace Operand

open Text

/-- Words that differ in the letter case of a frame, a type or a truth value only. -/
inductive Respelled : List Char → List Char → Prop where
  | same (w : List Char) : Respelled w w
  | var (kind : FrameKind) {f f' : List Char} (first : SpelledAs kind.small f)
      (second : SpelledAs kind.small f') (name : List Char) :
      Respelled (f ++ '@' :: name) (f' ++ '@' :: name)
  | dataType (type : DataType) {k k' : List Char} (first : SpelledAs type.keyword k)
      (second : SpelledAs type.keyword k') : Respelled k k'
  | constant (type : DataType) {k k' : List Char} (first : SpelledAs type.keyword k)
      (second : SpelledAs type.keyword k') (value : List Char) :
      Respelled (k ++ '@' :: value) (k' ++ '@' :: value)
  | truth (b : Bool) {k k' v v' : List Char} (first : SpelledAs DataType.bool.keyword k)
      (second : SpelledAs DataType.bool.keyword k') (literal : SpelledAs (toString b) v)
      (literal' : SpelledAs (toString b) v') : Respelled (k ++ '@' :: v) (k' ++ '@' :: v')

variable {type : DataType} {kind : FrameKind} {s k f value : List Char}

theorem isKeywordLike_of_spelled (spelled : SpelledAs type.keyword k) : isKeywordLike k = true := by
  unfold isKeywordLike spells
  rw [spelled.fold]
  cases type <;> decide

theorem keyword?_of_spelled (spelled : SpelledAs type.keyword k) : keyword? k = some type := by
  unfold keyword?
  rw [show k.map Char.toLower = _ from spelled]
  cases type <;> decide

theorem frameRef?_of_keyword (spelled : SpelledAs type.keyword k) : frameRef? k = none := by
  have size : k.length ≠ 2 := by
    have lengths := congrArg List.length spelled
    rw [List.length_map] at lengths
    rw [lengths]
    cases type <;> decide
  unfold frameRef?
  split
  · exact absurd rfl size
  · rfl

theorem not_isKeywordLike_of_frame (spelled : SpelledAs kind.small f) :
    isKeywordLike f = false := by
  unfold isKeywordLike spells
  rw [spelled.fold]
  cases kind <;> decide

theorem withoutFinalBreak_of_not_mem (unbroken : '\n' ∉ s) : withoutFinalBreak s = s := by
  unfold withoutFinalBreak
  split
  · rename_i last
    exact absurd (List.mem_of_getLast? last) unbroken
  · rfl

theorem frameRef?_of_spelled (spelled : SpelledAs kind.small f) :
    ∃ r, frameRef? f = some r ∧ r.kind = kind := by
  have shape : kind.small.toList = [kind.letter.toLower, 'f'] := by cases kind <;> decide
  have letters : f.map Char.toLower = [kind.letter.toLower, 'f'] := spelled.trans shape
  have size : f.length = 2 := by simpa using congrArg List.length letters
  obtain ⟨a, b, rfl⟩ := List.length_eq_two.mp size
  simp only [List.map_cons, List.map_nil, List.cons.injEq, and_true] at letters
  have first : a.toUpper = kind.letter := by
    have agreed := agrees_toLower (g := Char.toUpper) (by decide) a
    rw [← agreed, letters.1]
    cases kind <;> decide
  have second : b = 'F' ∨ b = 'f' := by
    have agreed := agrees_toLower (g := fun c => decide (c = 'F' ∨ c = 'f')) (by decide) b
    simpa [letters.2] using agreed
  refine ⟨⟨kind, kind.letter = a, b = 'F'⟩, ?_, rfl⟩
  simp only [frameRef?, if_pos second, first]
  cases kind <;> rfl

theorem parse_marked (unmarked : '@' ∉ s) (value : List Char) :
    parse (String.ofList (s ++ '@' :: value)) =
      (parseConstant s value).getD ((parseVariable s value).elim (.error .invalid) .ok) := by
  have inside := bne_of_not_mem unmarked
  have before : (s ++ '@' :: value).takeWhile (· != '@') = s := by
    rw [List.takeWhile_append_of_pos inside]
    simp
  have behind : (s ++ '@' :: value).dropWhile (· != '@') = '@' :: value := by
    rw [List.dropWhile_append_of_pos inside]
    rfl
  simp only [parse, String.toList_ofList, before, behind]
  cases parseConstant s value with
  | some r => rfl
  | none => cases parseVariable s value <;> rfl

theorem parseConstant_of_spelled (spelled : SpelledAs type.keyword k) (value : List Char) :
    parseConstant k value =
      if (withoutFinalBreak value).contains '\n' then none
      else some ((readConstant type (withoutFinalBreak value)).map .constant) := by
  simp only [parseConstant, isKeywordLike_of_spelled spelled, keyword?_of_spelled spelled,
    Bool.not_true, Bool.false_or]

theorem not_marked_of_keyword (spelled : SpelledAs type.keyword k) : '@' ∉ k :=
  spelled.not_mem (by decide) (by cases type <;> decide)

theorem parse_constant (spelled : SpelledAs type.keyword k) (value : List Char) :
    parse (String.ofList (k ++ '@' :: value)) =
      if (withoutFinalBreak value).contains '\n' then .error .invalid
      else (readConstant type (withoutFinalBreak value)).map .constant := by
  have unframed : parseVariable k value = none := by
    simp only [parseVariable, frameRef?_of_keyword spelled]
  rw [parse_marked (not_marked_of_keyword spelled), parseConstant_of_spelled spelled, unframed]
  split <;> rfl

theorem parse_dataType (spelled : SpelledAs type.keyword k) :
    parse (String.ofList k) = .ok (.dataType type) := by
  have unmarked := not_marked_of_keyword spelled
  have unbroken : '\n' ∉ k := spelled.not_mem (by decide) (by cases type <;> decide)
  have behind : k.dropWhile (· != '@') = [] :=
    List.dropWhile_eq_nil_iff.mpr (bne_of_not_mem unmarked)
  simp only [parse, String.toList_ofList, behind, parseWord, withoutFinalBreak_of_not_mem unbroken,
    isKeywordLike_of_spelled spelled, keyword?_of_spelled spelled, if_true]

theorem parse_truth {b : Bool} (spelled : SpelledAs DataType.bool.keyword k)
    (literal : SpelledAs (toString b) value) :
    parse (String.ofList (k ++ '@' :: value)) = .ok (.constant (.bool b)) := by
  have unbroken : '\n' ∉ value := literal.not_mem (by decide) (by cases b <;> decide)
  have read : readConstant .bool value = .ok (.bool b) := by
    simp only [readConstant, show value.map Char.toLower = _ from literal]
    cases b <;> rfl
  rw [parse_constant spelled, withoutFinalBreak_of_not_mem unbroken, read,
    if_neg (by simpa using unbroken)]
  rfl

theorem parse_variable (spelled : SpelledAs kind.small f) (name : List Char) :
    ∃ r, r.kind = kind ∧ parse (String.ofList (f ++ '@' :: name)) =
      if isIdentifier (withoutFinalBreak name)
      then .ok (.var r (String.ofList (withoutFinalBreak name)))
      else .error .invalid := by
  obtain ⟨r, found, same⟩ := frameRef?_of_spelled spelled
  have unmarked : '@' ∉ f := spelled.not_mem (by decide) (by cases kind <;> decide)
  refine ⟨r, same, ?_⟩
  have untyped : parseConstant f name = none := by
    simp [parseConstant, not_isKeywordLike_of_frame spelled]
  rw [parse_marked unmarked, untyped]
  simp only [parseVariable, found]
  split <;> rfl

end Operand

namespace Program

open Text

/-- Lines with the same command and respelled operands. -/
inductive RespelledLine : List (List Char) → List (List Char) → Prop where
  | words {c c' : List Char} {ws ws' : List (List Char)} (command : SameLetters c c')
      (operands : List.Forall₂ Operand.Respelled ws ws') : RespelledLine (c :: ws) (c' :: ws')

/-- Codes each of whose lines is respelled in the other, but for a header, which is the same in
both. -/
inductive RespelledCode : List (List (List Char)) → List (List (List Char)) → Prop where
  | lines {first first' : List (List Char)} {rest rest' : List (List (List Char))}
      (heads : first = first' ∨
        RespelledLine first first' ∧ first ≠ [header.toList] ∧ first' ≠ [header.toList])
      (respelled : List.Forall₂ RespelledLine rest rest') :
      RespelledCode (first :: rest) (first' :: rest')

end Program

namespace Machine

open Text

/-- The fault with the frame that it names in capitals. -/
def Fault.capitalised : Fault → Fault
  | .language (.undefinedVariable frame name) =>
    .language (.undefinedVariable (String.ofList (frame.toList.map Char.toUpper)) name)
  | .language (.undeclaredVariable frame name) =>
    .language (.undeclaredVariable (String.ofList (frame.toList.map Char.toUpper)) name)
  | f => f

theorem Fault.capitalised_eq_interrupted {f : Fault} :
    f.capitalised = .interrupted ↔ f = .interrupted := by
  unfold Fault.capitalised
  split <;> simp

theorem FrameRef.capitals (f : FrameRef) :
    f.spelling.toList.map Char.toUpper = [f.kind.letter, 'F'] := by
  obtain ⟨kind, first, second⟩ := f
  cases kind <;> cases first <;> cases second <;> decide

/-- Any spelling of a frame passes for any other one of the same frame. -/
def Tolerance.spelling : Tolerance where
  frames f f' := f.kind = f'.kind
  faults e e' := e.capitalised = e'.capitalised
  kind same := same
  sameFrame _ := rfl
  sameFault _ := rfl
  undefined name same := by simp only [Fault.capitalised, FrameRef.capitals, same]
  undeclared name same := by simp only [Fault.capitalised, FrameRef.capitals, same]
  interrupted same := by rw [← Fault.capitalised_eq_interrupted, same,
    Fault.capitalised_eq_interrupted]

namespace Tolerance

theorem words_of_respelled {w w' : List Char} (respelled : Operand.Respelled w w') :
    spelling.Words w w' := by
  cases respelled with
  | same w => exact .refl w
  | dataType type first second =>
    rw [Words, Operand.parse_dataType first, Operand.parse_dataType second]
    exact .ok (.dataType type)
  | truth b first second literal literal' =>
    rw [Words, Operand.parse_truth first literal, Operand.parse_truth second literal']
    exact .ok (.constant _)
  | @constant type k k' first second value =>
    have same : Operand.parse (String.ofList (k ++ '@' :: value)) =
        Operand.parse (String.ofList (k' ++ '@' :: value)) := by
      rw [Operand.parse_constant first, Operand.parse_constant second]
    rw [Words, same]
    exact Words.refl _
  | var kind first second name =>
    obtain ⟨r, kind, read⟩ := Operand.parse_variable first name
    obtain ⟨r', kind', read'⟩ := Operand.parse_variable second name
    rw [Words, read, read']
    split
    · exact .ok (.var (kind.trans kind'.symm) _)
    · exact .error rfl

theorem lines_of_respelled {ws ws' : List (List Char)} (respelled : Program.RespelledLine ws ws') :
    spelling.Lines ws ws' := by
  cases respelled with
  | words command operands =>
    exact .words (upper_eq_of_sameLetters command) (operands.imp fun _ _ => words_of_respelled)

theorem codes_of_respelled {code code' : List (List (List Char))}
    (respelled : Program.RespelledCode code code') : spelling.Codes code code' := by
  cases respelled with
  | lines heads respelled =>
    exact .behind (heads.imp_right And.right) (respelled.imp fun _ _ => lines_of_respelled)

end Tolerance

variable {t : Tolerance} {p p' : Program} {m : Machine} {c : Opcode} {os os' : List Operand}
  {line : Int}

/-- The machine on another line. -/
def onLine (m : Machine) (line : Int) : Machine := { m with line }

/-- Programs with the same instructions, on whichever lines they stand. -/
def Tolerance.Programs (t : Tolerance) (p p' : Program) : Prop :=
  List.Forall₂ t.Counterparts p.instructions.toList p'.instructions.toList

theorem enter_of_counterparts {i i' : Instruction} (like : t.Counterparts i i')
    (d : Dictionary (Option String) Int) (n : Nat) :
    Program.enter d (i, n) = Program.enter d (i', n) := by
  obtain ⟨c, os⟩ := i
  obtain ⟨c', os'⟩ := i'
  obtain ⟨opcode, operands⟩ := like
  cases show c = c' from opcode
  cases show List.Forall₂ t.Operands os os' from operands with
  | nil => cases c <;> rfl
  | cons first _ => cases c <;> simp [Program.enter, first.labelOf]

theorem labels_of_programs (like : t.Programs p p') : p.labels = p'.labels := by
  have filled {is is' : List Instruction} (like : List.Forall₂ t.Counterparts is is')
      (d : Dictionary (Option String) Int) (n : Nat) :
      (is.zipIdx n).foldl Program.enter d = (is'.zipIdx n).foldl Program.enter d := by
    induction like generalizing d n with
    | nil => rfl
    | cons first _ ih =>
      simp only [List.zipIdx_cons, List.foldl_cons, enter_of_counterparts first]
      exact ih _ _
  rw [Program.labels_eq, Program.labels_eq]
  exact filled like [] 0

inductive Fetches (t : Tolerance) : Option Instruction → Option Instruction → Prop where
  | none : Fetches t .none .none
  | some {i i' : Instruction} (like : t.Counterparts i i') : Fetches t (.some i) (.some i')

theorem fetches_of_programs (like : t.Programs p p') (m : Machine) (line : Int) :
    Fetches t (p.fetch? m) (p'.fetch? (m.onLine line)) := by
  have found {is is' : List Instruction} (like : List.Forall₂ t.Counterparts is is') (n : Nat) :
      Fetches t is[n]? is'[n]? := by
    induction like generalizing n with
    | nil => exact .none
    | cons first _ ih =>
      cases n with
      | zero => exact .some first
      | succ n => exact ih n
  have same : (m.onLine line).pc = m.pc := rfl
  unfold Program.fetch?
  rw [same]
  split
  · exact .none
  · rw [← Array.getElem?_toList, ← Array.getElem?_toList]
    exact found like _

/-- Two ends of an instruction on whichever lines. -/
inductive Elsewhere (t : Tolerance) :
    EStateM.Result Fault Machine Unit → EStateM.Result Fault Machine Unit → Prop where
  | ok (m : Machine) (line : Int) : Elsewhere t (.ok () m) (.ok () (m.onLine line))
  | error {e e' : Fault} (like : t.faults e e') (m : Machine) (line : Int) :
      Elsewhere t (.error e m) (.error e' (m.onLine line))

theorem command_elsewhere (like : List.Forall₂ t.Operands os os') (count : os.length = c.arity) :
    Elsewhere t ((command c os).run m) ((command c os').run (m.onLine line)) := by
  have both : Matches t (inputAfter c m.input) line ((command c os).run m)
      ((command c os').run (m.onLine line)) := command_matches like count fun _ => rfl
  have kept := (command_keeps count m).1
  unfold left at kept
  generalize (command c os).run m = r at both kept ⊢
  generalize (command c os').run (m.onLine line) = r' at both ⊢
  cases both with
  | ok u n =>
    rw [← kept]
    exact .ok n line
  | error like n =>
    rw [← kept]
    exact .error like n line

theorem execute_elsewhere {i i' : Instruction} (like : t.Counterparts i i')
    (count : i.operands.length = i.opcode.arity) :
    Elsewhere t ((execute i).run m) ((execute i').run (m.onLine line)) := by
  have commanded : Elsewhere t ((command i.opcode i.operands).run m)
      ((command i.opcode i'.operands).run (m.onLine line)) := command_elsewhere like.operands count
  have accounted (n : Machine) (line : Int) :
      account i' (n.onLine line) = (account i n).onLine i'.index := by
    simp only [account, onLine, like.opcode]
  unfold execute
  rw [EStateM.run_bind, EStateM.run_bind, ← like.opcode]
  generalize (command i.opcode i.operands).run m = r at commanded ⊢
  generalize (command i.opcode i'.operands).run (m.onLine line) = r' at commanded ⊢
  cases commanded with
  | ok n line =>
    have ends : Elsewhere t (.ok () (account i n)) (.ok () ((account i n).onLine i'.index)) :=
      .ok _ _
    rw [← accounted n line] at ends
    exact ends
  | error like n line => exact .error like n line

theorem advance_onLine (before after : Machine) (line line' : Int) :
    advance (before.onLine line) (after.onLine line') = (advance before after).onLine line' := by
  have input : (advance before after).input = after.input := by
    unfold advance
    split <;> rfl
  calc advance (before.onLine line) (after.onLine line')
      = (advance before after).displaced after.input line' := advance_displaced before after _ _ _ _
    _ = (advance before after).displaced (advance before after).input line' := by rw [input]

/-- Two outcomes of a step on whichever lines. -/
inductive StepsAlike (t : Tolerance) : Step → Step → Prop where
  | ended : StepsAlike t .ended .ended
  | next (m : Machine) (line : Int) : StepsAlike t (.next m) (.next (m.onLine line))
  | interrupted (m : Machine) (line : Int) :
      StepsAlike t (.interrupted m) (.interrupted (m.onLine line))
  | failed {f f' : Failure} (like : t.faults f.fault f'.fault) (m : Machine) (line : Int) :
      StepsAlike t (.failed f m) (.failed f' (m.onLine line))

theorem step_of_interrupted {i : Instruction} {m' : Machine} (fetched : p.fetch? m = some i)
    (ran : (execute i).run m = .error .interrupted m') : step p m = .interrupted m' := by
  simp only [step, fetched, ran]

theorem step_of_error {i : Instruction} {e : Fault} {m' : Machine} (fetched : p.fetch? m = some i)
    (ran : (execute i).run m = .error e m') (other : e ≠ .interrupted) :
    step p m = .failed (located i e) m' := by
  simp only [step, fetched, ran]

theorem step_alike (regular : Regular p) (like : t.Programs p p') (m : Machine) (line : Int) :
    StepsAlike t (step p m) (step p' (m.onLine line)) := by
  have fetched := fetches_of_programs like m line
  generalize first : p.fetch? m = found at fetched
  generalize second : p'.fetch? (m.onLine line) = found' at fetched
  cases fetched with
  | none =>
    rw [step_ended.mpr first, step_ended.mpr second]
    exact .ended
  | @some i i' like =>
    have executed : Elsewhere t ((execute i).run m) ((execute i').run (m.onLine line)) :=
      execute_elsewhere like (regular m.pc i first)
    generalize ran : (execute i).run m = r at executed
    generalize ran' : (execute i').run (m.onLine line) = r' at executed
    cases executed with
    | ok n after =>
      rw [step_next.mpr ⟨i, n, first, ran, rfl⟩, step_next.mpr ⟨i', _, second, ran', rfl⟩,
        advance_onLine]
      exact .next _ _
    | @error e e' like n after =>
      by_cases interrupted : e = .interrupted
      · have interrupted' := (t.interrupted like).mp interrupted
        subst interrupted interrupted'
        rw [step_of_interrupted first ran, step_of_interrupted second ran']
        exact .interrupted n after
      · have other : e' ≠ .interrupted := interrupted ∘ (t.interrupted like).mpr
        rw [step_of_error first ran interrupted, step_of_error second ran' other]
        refine .failed ?_ n after
        rwa [located_fault, located_fault]

/-- Two outcomes of a run that differ in what they report about lines and spellings only. -/
inductive EndsAlike (t : Tolerance) : Outcome → Outcome → Prop where
  | finished : EndsAlike t .finished .finished
  | outOfFuel : EndsAlike t .outOfFuel .outOfFuel
  | failed {f f' : Failure} (like : t.faults f.fault f'.fault) :
      EndsAlike t (.failed f) (.failed f')

/-- Two runs that end alike, with all that has been written and all of the machine the same but the
line. -/
structure AlikeButLine (t : Tolerance) (first second : Outcome × Machine) : Prop where
  outcome : EndsAlike t first.1 second.1
  machine : second.2 = { first.2 with line := second.2.line }

-- The line that a machine stands on changes with each instruction, so the induction is over all of
-- them.
theorem run_alike (regular : Regular p) (like : t.Programs p p') (n : Nat) (m : Machine)
    (line : Int) :
    AlikeButLine t (run p n m) (run p' n (m.onLine line)) := by
  induction n generalizing m line with
  | zero => exact ⟨.outOfFuel, rfl⟩
  | succ n ih =>
    have stepped := step_alike regular like m line
    unfold run
    generalize step p m = s at stepped ⊢
    generalize step p' (m.onLine line) = s' at stepped ⊢
    cases stepped with
    | ended => exact ⟨.finished, rfl⟩
    | next m line => exact ih m line
    | interrupted m line => exact ⟨.finished, rfl⟩
    | failed like m line => exact ⟨.failed like, rfl⟩

theorem start_of_programs (like : t.Programs p p') (input : String) (interruptOn : Option Text) :
    p'.start input interruptOn = (p.start input interruptOn).onLine p'.firstLine := by
  unfold Program.start
  rw [labels_of_programs like]
  rfl

/-- Codes with a line that has words, whose lines have the same words up to spelling, load both or
neither, and for the same cause; once loaded, they run alike on every input. -/
theorem surface_immaterial {code code' : String}
    (respelled : Program.RespelledCode (Program.tokenLines code.toList)
      (Program.tokenLines code'.toList)) :
    Concur Code.LoadFault.unplaced
      (fun p p' => ∀ (input : String) (interruptOn : Option Text) (n : Nat),
        AlikeButLine .spelling (run p n (p.start input interruptOn))
        (run p' n (p'.start input interruptOn)))
      (Program.load code) (Program.load code') := by
  have loaded := Program.load_concur (Tolerance.codes_of_respelled respelled)
  generalize first : Program.load code = r at loaded ⊢
  generalize Program.load code' = r' at loaded ⊢
  cases loaded with
  | error same => exact .error same
  | ok like =>
    refine .ok fun input interruptOn n => ?_
    rw [start_of_programs like]
    exact run_alike (regular_of_load first) like n _ _

def plainCode : String :=
  ".IFJcode17\nDEFVAR GF@x\nMOVE GF@x bool@true\nWRITE GF@x\nMOVE GF@y int@7\n"

/-- The same code with comments, empty lines, more blanks and other letters. -/
def ornateCode : String :=
  "# begin\n\n  .IFJcode17 # header\n\tdefvar   gf@x\r\n\nMove gF@x BOOL@True#set\nwrite\tGf@x\n\nMOVE Gf@y  Int@7"

theorem ornate_respelled :
    Program.RespelledCode (Program.tokenLines plainCode.toList)
    (Program.tokenLines ornateCode.toList) := by
  have plain : Program.tokenLines plainCode.toList =
      [[".IFJcode17"], ["DEFVAR", "GF@x"], ["MOVE", "GF@x", "bool@true"], ["WRITE", "GF@x"],
        ["MOVE", "GF@y", "int@7"]].map (·.map String.toList) := by decide +kernel
  have ornate : Program.tokenLines ornateCode.toList =
      [[".IFJcode17"], ["defvar", "gf@x"], ["Move", "gF@x", "BOOL@True"], ["write", "Gf@x"],
        ["MOVE", "Gf@y", "Int@7"]].map (·.map String.toList) := by decide +kernel
  rw [plain, ornate]
  refine .lines (.inl rfl) (.cons (.words ?_ (.cons ?_ .nil))
    (.cons (.words ?_ (.cons ?_ (.cons ?_ .nil)))
    (.cons (.words ?_ (.cons ?_ .nil)) (.cons (.words ?_ (.cons ?_ (.cons ?_ .nil))) .nil))))
  · decide
  · exact @Operand.Respelled.var .globals ['G', 'F'] ['g', 'f'] (by decide) (by decide) ['x']
  · decide
  · exact @Operand.Respelled.var .globals ['G', 'F'] ['g', 'F'] (by decide) (by decide) ['x']
  · exact @Operand.Respelled.truth true "bool".toList "BOOL".toList "true".toList "True".toList
      (by decide) (by decide) (by decide) (by decide)
  · decide
  · exact @Operand.Respelled.var .globals ['G', 'F'] ['G', 'f'] (by decide) (by decide) ['x']
  · decide
  · exact @Operand.Respelled.var .globals ['G', 'F'] ['G', 'f'] (by decide) (by decide) ['y']
  · exact @Operand.Respelled.constant .int "int".toList "Int".toList (by decide) (by decide) ['7']

/-- Both write before they fail, and report the frame as it is spelled. -/
theorem ornateCode_runs_alike :
    Program.RespelledCode (Program.tokenLines plainCode.toList)
    (Program.tokenLines ornateCode.toList) ∧
    (Program.load plainCode).toOption.isSome = true ∧
    Concur Code.LoadFault.unplaced
      (fun p p' => ∀ (input : String) (interruptOn : Option Text) (n : Nat),
        AlikeButLine .spelling (run p n (p.start input interruptOn))
        (run p' n (p'.start input interruptOn)))
      (Program.load plainCode) (Program.load ornateCode) :=
  ⟨ornate_respelled, by decide +kernel, surface_immaterial ornate_respelled⟩

end Machine
end TacBench
