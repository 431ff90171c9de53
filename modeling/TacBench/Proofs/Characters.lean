import TacBench.Proofs.Assignments

/-! The characters of texts. An index below zero counts from the end of the text, so that the
commands which take a character out succeed on both sides of zero; outside the text, the command
that gives the character reports the index, and those that give its code fail with what the access
fails with. The command that should replace a character fails whatever its operands are, and leaves
the text as it was. -/
namespace TacBench

theorem CodePoint.toNat_lt (c : CodePoint) : c.toNat < 0x110000 := by
  cases c with
  | char c =>
    rcases c.valid with low | ⟨-, high⟩
    · exact Nat.lt_trans low (by decide)
    · exact high
  | half offset =>
    have := offset.isLt
    simp only [toNat]
    omega

namespace Value

variable {s : Text} {i : Int} {c : CodePoint}

/-- Indices have 64 bits. -/
def Indexable (i : Int) : Prop := -Int.pow 2 63 ≤ i ∧ i < Int.pow 2 63

instance : DecidablePred Indexable := fun _ => inferInstanceAs (Decidable (_ ∧ _))

theorem not_indexable_iff : ¬ Indexable i ↔ i < -Int.pow 2 63 ∨ Int.pow 2 63 ≤ i := by
  rw [Indexable, not_and_or, Int.not_le, Int.not_lt]

/-- An index names a character: it counts from the start of the text or, less the length, from its
end. -/
structure Names (s : Text) (i : Int) (c : CodePoint) : Prop where
  indexable : Indexable i
  place : ∃ k : Nat, s[k]? = some c ∧ (i = k ∨ i = k - s.length)

theorem exists_names_iff : (∃ c, Names s i c) ↔ Indexable i ∧ -s.length ≤ i ∧ i < s.length := by
  constructor
  · rintro ⟨c, indexable, k, held, counted⟩
    obtain ⟨inside, -⟩ := List.getElem?_eq_some_iff.mp held
    exact ⟨indexable, by omega, by omega⟩
  · rintro ⟨indexable, low, high⟩
    have inside : (if i < 0 then i + s.length else i).toNat < s.length := by omega
    exact ⟨_, indexable, _, List.getElem?_eq_getElem inside, by omega⟩

theorem pointAt_of_names (named : Names s i c) : pointAt (.str s) (.int i) = .ok c := by
  obtain ⟨indexable, k, held, counted⟩ := named
  obtain ⟨inside, -⟩ := List.getElem?_eq_some_iff.mp held
  have position : (if i < 0 then i + s.length else i) = k := by omega
  simp only [pointAt, integer?, ← not_indexable_iff]
  rw [if_neg (not_not.mpr indexable), position, if_neg (by omega), Int.toNat_natCast, held]

theorem pointAt_of_unnamed (unnamed : ∀ c, ¬ Names s i c) :
    pointAt (.str s) (.int i) = .error (if Indexable i then .indexRange else .indexSize) := by
  simp only [pointAt, integer?, ← not_indexable_iff]
  by_cases indexable : Indexable i
  · rw [if_neg (not_not.mpr indexable), if_pos indexable]
    generalize counted : (if i < 0 then i + (s.length : Int) else i) = k
    by_cases before : k < 0
    · rw [if_pos before]
    · rw [if_neg before]
      cases held : s[k.toNat]? with
      | none => rfl
      | some c => exact absurd ⟨indexable, k.toNat, held, by omega⟩ (unnamed c)
  · rw [if_pos indexable, if_neg indexable]

theorem codeAt_of_names (named : Names s i c) : codeAt (.str s) (.int i) = .ok (.int c.toNat) := by
  rw [codeAt, pointAt_of_names named]
  rfl

theorem codeAt_of_unnamed (unnamed : ∀ c, ¬ Names s i c) :
    codeAt (.str s) (.int i) = .error (if Indexable i then .indexRange else .indexSize) := by
  rw [codeAt, pointAt_of_unnamed unnamed]
  rfl

theorem not_overlong_of_lt (small : i.natAbs < Nat.pow 10 20) : ¬ (Value.int i).Overlong := by
  have digits : 20 ≤ Integer.digitLimit := by decide
  simp only [Overlong, Nat.not_le]
  generalize Integer.digitLimit = d at digits ⊢
  exact Nat.lt_of_lt_of_le small (Nat.pow_le_pow_right (by decide) digits)

theorem code_not_overlong (c : CodePoint) : ¬ (Value.int c.toNat).Overlong :=
  not_overlong_of_lt (Nat.lt_trans c.toNat_lt (by decide))

theorem Indexable.not_overlong (indexable : Indexable i) : ¬ (Value.int i).Overlong := by
  obtain ⟨low, high⟩ := indexable
  have bits : Int.pow 2 63 = 9223372036854775808 := rfl
  have digits : Nat.pow 10 20 = 100000000000000000000 := rfl
  exact not_overlong_of_lt (by omega)

theorem text_of_overlong {v : Value} (long : v.Overlong) : v.text = .error .textLimit := by
  cases v with
  | int n =>
    have textless : ¬ Integer.hasText n = true := by
      simpa only [Integer.hasText, decide_eq_true_eq, Overlong, Nat.not_lt] using long
    rw [text, if_neg textless]
  | none | bool b | float x | str s => exact long.elim

end Value

namespace Machine

open Value

variable {m : Machine} {f : FrameRef} {name : String} {a b : Operand} {s : Text} {i : Int}
  {c : CodePoint} {rest : List Value}

section Operands

variable (f name) (text : lookup m (.operand a) = .ok (.str s))
  (index : lookup m (.operand b) = .ok (.int i))
include text index

theorem getChar_named (named : Names s i c) :
    Leads (getChar (.operand (.var f name)) (.operand a) (.operand b)) m
    (stored m f name (.str [c])) := by
  refine (read_found rfl text).andThen fun x₁ alike => ?_
  refine (read_found alike index).andThen fun x₂ alike => ?_
  rw [pointAt_of_names named]
  exact assign_leads alike f name (.str [c])

-- The index is read a second time for the message.
theorem getChar_unnamed (unnamed : ∀ c, ¬ Names s i c) :
    Leads (getChar (.operand (.var f name)) (.operand a) (.operand b)) m
      (.error (.language (.badIndex (.str s) (.int i)))) := by
  refine (read_found rfl text).andThen fun x₁ alike => ?_
  refine (read_found alike index).andThen fun x₂ alike => ?_
  rw [pointAt_of_unnamed unnamed]
  by_cases indexable : Indexable i
  · rw [if_pos indexable]
    refine (read_found alike index).andThen fun x₃ _ => ?_
    exact ⟨x₃, rfl⟩
  · rw [if_neg indexable]
    refine (read_found alike index).andThen fun x₃ _ => ?_
    exact ⟨x₃, rfl⟩

theorem codeAt_leads :
    Leads (binary Value.codeAt (.operand (.var f name)) (.operand a) (.operand b)) m
      (lifted (Value.codeAt (.str s) (.int i)) >>= stored m f name) := by
  have code : binaryValue m .codeAt a b = lifted (Value.codeAt (.str s) (.int i)) := by
    rw [binaryValue, text, index]
    rfl
  rw [← code]
  exact binary_leads .codeAt

end Operands

section Stack

variable (held : m.stack = .int i :: .str s :: rest)
include held

theorem codeAtStack_leads (short : ¬ (Value.int i).Overlong)
    (result : Short (lifted (Value.codeAt (.str s) (.int i)))) :
    Leads (binaryStack Value.codeAt) m
      ((fun v => ((), { m with stack := v :: rest })) <$>
          lifted (Value.codeAt (.str s) (.int i))) := by
  have alike : Alike m ((pushed { m with stack := rest } (.str s)).pushed (.int i)) := by
    unfold Alike unpriced pushed
    rw [held]
  exact binaryStack_leads alike id short result

theorem codeAtStack_overlong (long : (Value.int i).Overlong) :
    Leads (binaryStack Value.codeAt) m (.error (.value .textLimit)) := by
  have ran := popValue_run m
  rw [held] at ran
  dsimp only at ran
  rw [text_of_overlong long] at ran
  exact ⟨m, by rw [binaryStack, EStateM.run_bind, ran]⟩

end Stack

/-- The text and the index can be read, and the variable for the result has been declared. -/
structure Available (m : Machine) (f : FrameRef) (name : String) (a b : Operand) (s : Text)
    (i : Int) : Prop where
  declared : Declared m f name
  text : lookup m (.operand a) = .ok (.str s)
  index : lookup m (.operand b) = .ok (.int i)

/-- The three commands that take a character out of a text succeed for every index from minus the
length on up to the length, and give the character that the index names from the start or the end,
or its code. For every other index one of them reports it, and the others fail as the access
does. -/
theorem characters_taken (s : Text) (i : Int) (line : Int × String) :
    ((∃ c, Names s i c) ↔ Indexable i ∧ -s.length ≤ i ∧ i < s.length) ∧
    (∀ m f name a b, Available m f name a b s i →
      (∀ c, Names s i c →
        Assigns (Opcode.getChar.on [.var f name, a, b] line) m f name (.str [c]) ∧
        Assigns ((Opcode.binary .codeAt).on [.var f name, a, b] line) m f name (.int c.toNat)) ∧
      ((∀ c, ¬ Names s i c) →
        Refuses (Opcode.getChar.on [.var f name, a, b] line) m
        (.language (.badIndex (.str s) (.int i))) ∧
        Refuses ((Opcode.binary .codeAt).on [.var f name, a, b] line) m
          (.value (if Indexable i then .indexRange else .indexSize)))) ∧
    ∀ m rest, m.stack = .int i :: .str s :: rest →
      (∀ c, Names s i c → Leads (execute ((Opcode.binaryStack .codeAt).on [] line)) m
        (.ok ((), { m with stack := .int c.toNat :: rest }))) ∧
      ((∀ c, ¬ Names s i c) → Leads (execute ((Opcode.binaryStack .codeAt).on [] line)) m
        (.error (.value (if (Value.int i).Overlong then .textLimit
          else if Indexable i then .indexRange else .indexSize)))) := by
  refine ⟨exists_names_iff, ?_, ?_⟩
  · rintro m f name a b ⟨declared, text, index⟩
    have code := codeAt_leads f name text index
    constructor
    · intro c named
      rw [codeAt_of_names named] at code
      have character := getChar_named f name text index named
      exact ⟨Leads.assigns character declared, Leads.assigns code declared⟩
    · intro unnamed
      rw [codeAt_of_unnamed unnamed] at code
      have character := getChar_unnamed f name text index unnamed
      exact ⟨Leads.refuses character rfl nofun nofun, Leads.refuses code rfl nofun nofun⟩
  · intro m rest held
    constructor
    · intro c named
      have code := codeAtStack_leads held named.indexable.not_overlong
      rw [codeAt_of_names named] at code
      have short : Short (lifted (.ok (.int c.toNat))) := by
        rintro v ⟨⟩
        exact code_not_overlong c
      exact execute_leads rfl (code short)
    · intro unnamed
      by_cases long : (Value.int i).Overlong
      · rw [if_pos long]
        exact execute_leads rfl (codeAtStack_overlong held long)
      · have code := codeAtStack_leads held long
        rw [codeAt_of_unnamed unnamed] at code
        rw [if_neg long]
        exact execute_leads rfl (code nofun)

/-- A text in a variable, and a variable for results. -/
def abcInX : Machine where
  globals := [("x", .str "abc"), ("y", .none)]

/-- The second character from the end, and its code. -/
theorem b_taken_from_end :
    let x : Operand := .var ⟨.globals, true, true⟩ "x"
    let y : Operand := .var ⟨.globals, true, true⟩ "y"
    let index : Operand := .constant (.int (-2))
    Available abcInX ⟨.globals, true, true⟩ "y" x index "abc" (-2) ∧ Names "abc" (-2) (.char 'b') ∧
    Assigns (Opcode.getChar.on [y, x, index] (1, "")) abcInX ⟨.globals, true, true⟩ "y" (.str "b") ∧
    Assigns ((Opcode.binary .codeAt).on [y, x, index] (1, "")) abcInX ⟨.globals, true,
      true⟩ "y" (.int 98) := by
  intro x y index
  have available : Available abcInX ⟨.globals, true, true⟩ "y" x index "abc" (-2) :=
    ⟨⟨abcInX.globals, rfl, by decide⟩, rfl, rfl⟩
  have named : Names "abc" (-2) (.char 'b') := ⟨by decide, 1, by decide, by decide⟩
  obtain ⟨-, taken, -⟩ := characters_taken "abc" (-2) (1, "")
  obtain ⟨inside, -⟩ := taken abcInX _ _ _ _ available
  obtain ⟨character, code⟩ := inside (.char 'b') named
  exact ⟨available, named, character, code⟩

/-- An index below zero is accepted, and one behind the text is no error of the language. -/
theorem indices_unchecked :
    let x : Operand := .var ⟨.globals, true, true⟩ "x"
    let y : Operand := .var ⟨.globals, true, true⟩ "y"
    (∃ m', (execute (Opcode.getChar.on [y, x, .constant (.int (-1))] (1, ""))).run
      abcInX = .ok () m' ∧
      valueAt m' 0 "y" = some (.str "c")) ∧
    ∃ m', (execute ((Opcode.binary .codeAt).on [y, x, .constant (.int 3)] (1, ""))).run abcInX =
      .error (.value .indexRange) m' :=
  ⟨⟨_, rfl, rfl⟩, _, rfl⟩

/-! Replacing a character -/

theorem getChar_assigns_iff (available : Available m f name a b s i) (line : Int × String) :
    Assigns (Opcode.getChar.on [.var f name, a, b] line) m f name (.str [c]) ↔ Names s i c := by
  obtain ⟨declared, text, index⟩ := available
  have given {c : CodePoint} (named : Names s i c) :
      Assigns (Opcode.getChar.on [.var f name, a, b] line) m f name (.str [c]) :=
    Leads.assigns (getChar_named f name text index named) declared
  refine ⟨fun assigns => ?_, given⟩
  by_cases exist : ∃ c, Names s i c
  · obtain ⟨e, named⟩ := exist
    cases assigns.unique (given named)
    exact named
  · have refuses : Refuses (Opcode.getChar.on [.var f name, a, b] line) m _ :=
      Leads.refuses (getChar_unnamed f name text index (not_exists.mp exist)) rfl nofun nofun
    exact absurd refuses assigns.not_refuses

theorem textLength_leads (text : lookup m (.operand a) = .ok (.str s)) :
    Leads (textLength (.operand (.var f name)) (.operand a)) m
    (stored m f name (.int s.length)) := by
  refine (read_found rfl text).andThen fun x₁ alike => ?_
  exact assign_leads alike f name (.int s.length)

/-- Whatever its operands are, the command fails, and has only paid. -/
theorem setChar_ends (target index source : Source) (m : Machine) :
    Ends (setChar target index source) m (fun _ m' => Alike m' m) fun _ _ => False := by
  change Ends _ (m.prepared 0 0 false) _ _
  have paid (n : Nat) : Alike (m.prepared n 0 false) m := rfl
  refine Ends.read (fun _ _ => paid _) fun _ _ => Ends.read (fun _ _ => paid _) fun _ _ => ?_
  refine Ends.ofValue (fun _ _ => paid _) fun _ _ => Ends.read (fun _ _ => paid _) fun _ _ => ?_
  exact paid _

theorem setChar_refuses (a b c : Operand) (line : Int × String) (m : Machine) :
    ∃ e, Refuses (Opcode.setChar.on [a, b, c] line) m e := by
  have ends := setChar_ends (.operand a) (.operand b) (.operand c) m
  cases ran : (setChar (.operand a) (.operand b) (.operand c)).run m with
  | ok u m' => exact (ends.ok ran).elim
  | error e m' => exact ⟨e, m', execute_error.mpr ran, ends.error ran⟩

theorem setChar_leads {t : Text} {o : Operand} (held : lookup m (.operand a) = .ok (.str s))
    (index : lookup m (.operand b) = .ok (.int i))
    (source : lookup m (.operand o) = .ok (.str (c :: t))) :
    Leads (setChar (.operand a) (.operand b) (.operand o)) m
    (.error (.value (.notAssignable .str))) := by
  refine (read_found rfl held).andThen fun x₁ alike => ?_
  refine (read_found alike source).andThen fun x₂ alike => ?_
  refine (read_found alike index).andThen fun x₃ _ => ?_
  exact ⟨x₃, rfl⟩

/-- No character is ever replaced: on a text, an index and a text that is not empty the command
fails since texts do not change, and on other operands it fails too. Taking characters out of the
variable gives afterwards what it gave before at every index, and the length is the same; so the new
character is found at the index only if it was there already. -/
theorem characters_not_replaced (m : Machine) (line : Nat → Int × String) :
    (∀ a b o, ∃ e, Refuses (Opcode.setChar.on [a, b, o] (line 0)) m e) ∧
    ∀ f name b o s i c t, lookup m (.operand (.var f name)) = .ok (.str s) →
      lookup m (.operand b) = .ok (.int i) → lookup m (.operand o) = .ok (.str (c :: t)) →
      ∃ m', (execute (Opcode.setChar.on [.var f name, b, o] (line 0))).run m =
          .error (.value (.notAssignable .str)) m' ∧ Alike m' m ∧
        ∀ g y, Declared m g y →
          (∀ a j e, lookup m (.operand a) = .ok (.int j) →
            (Assigns (Opcode.getChar.on [.var g y, .var f name, a] (line 1)) m' g y (.str [e]) ↔
              Names s j e)) ∧
          Assigns (Opcode.length.on [.var g y, .var f name] (line 2)) m' g y (.int s.length) := by
  refine ⟨fun a b o => setChar_refuses a b o (line 0) m, ?_⟩
  intro f name b o s i c t held index source
  obtain ⟨m', ran⟩ := setChar_leads held index source
  have alike := (setChar_ends _ _ _ m).error ran
  have kept := (alike.frames.lookup (.operand (.var f name))).trans held
  refine ⟨m', execute_error.mpr ran, alike, fun g y declared => ⟨fun a j e position => ?_, ?_⟩⟩
  · exact getChar_assigns_iff ⟨declared.alike alike, kept,
      (alike.frames.lookup _).trans position⟩ (line 1)
  · exact Leads.assigns (textLength_leads kept) (declared.alike alike)

theorem z_not_put :
    let x : Operand := .var ⟨.globals, true, true⟩ "x"
    let y : Operand := .var ⟨.globals, true, true⟩ "y"
    let one : Operand := .constant (.int 1)
    let z : Operand := .constant (.str "z")
    ∃ m', (execute (Opcode.setChar.on [x, one, z] (1, ""))).run abcInX =
        .error (.value (.notAssignable .str)) m' ∧
      (Assigns (Opcode.getChar.on [y, x, one] (2, "")) m' ⟨.globals, true, true⟩ "y" (.str "z") ↔
        Names "abc" 1 (.char 'z')) ∧
      Assigns (Opcode.length.on [y, x] (3, "")) m' ⟨.globals, true, true⟩ "y" (.int 3) := by
  intro x y one z
  obtain ⟨-, kept⟩ := characters_not_replaced abcInX fun n => (n + 1, "")
  obtain ⟨m', ran, -, taken⟩ :=
    kept ⟨.globals, true, true⟩ "x" one z "abc" 1 (.char 'z') [] rfl rfl rfl
  obtain ⟨character, length⟩ := taken ⟨.globals, true, true⟩ "y" ⟨abcInX.globals, rfl, by decide⟩
  exact ⟨m', ran, character one 1 (.char 'z') rfl, length⟩

/-- The index is within the text and there is a character to put, but the text stays what it was. -/
theorem put_refused : ∃ m',
    (execute (Opcode.setChar.on [.var ⟨.globals, true, true⟩ "x", .constant (.int 1),
      .constant (.str "z")]
      (1, ""))).run abcInX = .error (.value (.notAssignable .str)) m' ∧
    valueAt m' 0 "x" = some (.str "abc") :=
  ⟨_, rfl, rfl⟩

end Machine
end TacBench
