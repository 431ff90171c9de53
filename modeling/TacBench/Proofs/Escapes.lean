import TacBench.Proofs.OperandForms

/-! Escapes in texts. Decoding goes through a text once, from left to right. An escape is a
backslash with three digits, and as a backslash is no digit, two escapes never overlap: each is
decoded wherever it stands, and what comes of it is not looked at again. -/
namespace TacBench.Operand

open Text

variable {a b e e' r s t : List Char} {c c' x : Char}

/-- A backslash and three digits, with the character of that decimal code. -/
inductive Escape : List Char → Char → Prop where
  | of_digits {x y z : Char} (hundreds : isAsciiDigit x = true) (tens : isAsciiDigit y = true)
      (ones : isAsciiDigit z = true) : Escape ['\\', x, y, z]
        (Char.ofNat (100 * (x.toNat - 48) + 10 * (y.toNat - 48) + (z.toNat - 48)))

/-- A text that writes each backslash as an escape, and of the other characters any that have
one. -/
inductive Encoding : List Char → List Char → Prop where
  | nil : Encoding [] []
  | plain {c : Char} {s t : List Char} (other : c ≠ '\\') (rest : Encoding s t) :
      Encoding (c :: s) (c :: t)
  | escaped {c : Char} {e s t : List Char} (escape : Escape e c) (rest : Encoding s t) :
      Encoding (c :: s) (e ++ t)

theorem Escape.head (escape : Escape e c) : e = '\\' :: e.tail := by
  cases escape
  rfl

theorem Escape.backslash_not_mem_tail (escape : Escape e c) : '\\' ∉ e.tail := by
  have other {d : Char} (digit : isAsciiDigit d = true) : '\\' ≠ d := by
    rintro rfl
    exact absurd digit (by decide)
  cases escape with
  | of_digits hundreds tens ones => simp [other hundreds, other tens, other ones]

/-- Exactly the characters with a code of up to three digits have an escape. -/
theorem exists_escape_iff : (∃ e, Escape e c) ↔ c.toNat ≤ 999 := by
  constructor
  · rintro ⟨e, escape⟩
    cases escape with
    | @of_digits x y z hundreds tens ones =>
      simp only [isAsciiDigit, Bool.and_eq_true, decide_eq_true_eq] at hundreds tens ones
      have valid : (100 * (x.toNat - 48) + 10 * (y.toNat - 48) + (z.toNat - 48)).isValidChar := by
        unfold Nat.isValidChar
        omega
      have code (n : Nat) (valid : n.isValidChar) : (Char.ofNat n).toNat = n := by
        rw [Char.ofNat, dif_pos valid]
        rfl
      rw [code _ valid]
      omega
  · intro small
    have digit : ∀ n < 10, isAsciiDigit (Char.ofNat (48 + n)) = true ∧
        (Char.ofNat (48 + n)).toNat - 48 = n := by
      decide
    obtain ⟨hundreds, first⟩ := digit (c.toNat / 100) (by omega)
    obtain ⟨tens, second⟩ := digit (c.toNat / 10 % 10) (by omega)
    obtain ⟨ones, third⟩ := digit (c.toNat % 10) (by omega)
    have escape := Escape.of_digits hundreds tens ones
    have code : 100 * (c.toNat / 100) + 10 * (c.toNat / 10 % 10) + c.toNat % 10 =
        c.toNat := by omega
    rw [first, second, third, code, Char.ofNat_toNat] at escape
    exact ⟨_, escape⟩

theorem unescape_escape (escape : Escape e c) (r : List Char) :
    unescape (e ++ r) = c :: unescape r := by
  cases escape with
  | @of_digits x y z hundreds tens ones =>
    have code : numeral 10 ([x, y, z].map fun d => d.toNat - 48) =
        100 * (x.toNat - 48) + 10 * (y.toNat - 48) + (z.toNat - 48) := by
      simp only [numeral, List.map_cons, List.map_nil, List.foldl_cons, List.foldl_nil]
      omega
    have digits : (isAsciiDigit x && isAsciiDigit y && isAsciiDigit z) =
        true := by simp [hundreds, tens, ones]
    rw [List.cons_append, List.cons_append, List.cons_append, List.cons_append,
      List.nil_append, unescape, if_pos digits, code]

/-- A character at which no escape begins stays. -/
theorem unescape_cons (unescaped : ∀ e c, Escape e c → ¬ e <+: x :: r) :
    unescape (x :: r) = x :: unescape r := by
  rw [unescape.eq_def]
  split
  · contradiction
  · rename_i y z w rest whole
    obtain ⟨rfl, rfl⟩ := List.cons.inj whole
    split
    · rename_i digits
      simp only [Bool.and_eq_true] at digits
      have escape := Escape.of_digits digits.1.1 digits.1.2 digits.2
      exact absurd (List.prefix_append _ rest) (unescaped _ _ escape)
    · rfl
  · rename_i whole
    obtain ⟨rfl, rfl⟩ := List.cons.inj whole
    rfl

/-- A text is empty, begins with an escape or begins with a character that stays. -/
theorem unescape_cases (s : List Char) :
    s = [] ∨ (∃ e c r, Escape e c ∧ s = e ++ r) ∨
      ∃ x r, s = x :: r ∧ ∀ e c, Escape e c → ¬ e <+: x :: r := by
  cases s with
  | nil => exact .inl rfl
  | cons x r =>
    by_cases begins : ∃ e c, Escape e c ∧ e <+: x :: r
    · obtain ⟨e, c, escape, rest, whole⟩ := begins
      exact .inr (.inl ⟨e, c, rest, escape, whole.symm⟩)
    · push Not at begins
      exact .inr (.inr ⟨x, r, rfl, begins⟩)

/-- An escape that begins in a text does not reach into another escape behind it. -/
theorem Escape.prefix_of_append (escape : Escape e c) (escape' : Escape e' c') (some : a ≠ [])
    (begins : e <+: a ++ (e' ++ b)) : e <+: a := by
  obtain ⟨rest, whole⟩ := begins
  rcases List.append_eq_append_iff.mp whole with ⟨inner, split, -⟩ | ⟨inner, split, behind⟩
  · exact ⟨inner, split.symm⟩
  · cases inner with
    | nil => simp [split]
    | cons d inner =>
      have first : d = '\\' := by
        rw [escape'.head] at behind
        exact (List.cons.inj behind).1.symm
      obtain ⟨y, ys, rfl⟩ := List.exists_cons_of_ne_nil some
      exact absurd (by simp [split, first]) escape.backslash_not_mem_tail

theorem unescape_append_escape (escape : Escape e c) (a b : List Char) :
    unescape (a ++ (e ++ b)) = unescape a ++ c :: unescape b := by
  -- By length, as an escape takes four characters at once.
  induction length : a.length using Nat.strong_induction_on generalizing a with
  | _ n ih =>
    subst length
    rcases unescape_cases a with rfl | ⟨e', c', r, escape', rfl⟩ | ⟨x, r, rfl, stays⟩
    · exact unescape_escape escape b
    · have shorter : r.length < (e' ++ r).length := by
        rw [escape'.head, List.cons_append, List.length_cons, List.length_append]
        omega
      rw [List.append_assoc, unescape_escape escape', unescape_escape escape', ih _ shorter r rfl]
      rfl
    · have stays' (e' : List Char) (c' : Char) (escape' : Escape e' c') : ¬ e' <+: x ::
          (r ++ (e ++ b)) :=
        fun begins => stays e' c' escape'
          (escape'.prefix_of_append escape (List.cons_ne_nil x r) begins)
      rw [List.cons_append, unescape_cons stays', unescape_cons stays, ih _ (by simp) r rfl]
      rfl

theorem unescape_of_no_escape (plain : ∀ e c, Escape e c → ¬ e <:+: s) : unescape s = s := by
  induction s with
  | nil => rfl
  | cons x r ih =>
    have rest (e : List Char) (c : Char) (escape : Escape e c) : ¬ e <:+: r :=
      fun inside => plain e c escape (List.infix_cons inside)
    rw [unescape_cons fun e c escape begins => plain e c escape begins.isInfix, ih rest]

theorem Encoding.unescape (encoding : Encoding s t) : unescape t = s := by
  induction encoding with
  | nil => rfl
  | @plain c s t other rest ih =>
    have stays (e : List Char) (d : Char) (escape : Escape e d) : ¬ e <+: c :: t := by
      intro begins
      rw [escape.head, List.cons_prefix_cons] at begins
      exact other begins.1.symm
    rw [unescape_cons stays, ih]
  | escaped escape rest ih => rw [unescape_escape escape, ih]

/-- Decoding goes through a text once. An escape is decoded whatever stands before and behind it, a
text without escapes stays as it is, and from a text that writes its backslashes as escapes, with
whichever other characters that have an escape, the same text is recovered. That holds of the
constants of a program as well. -/
theorem escapes_decoded_once :
    (∀ a b e c, Escape e c → unescape (a ++ (e ++ b)) = unescape a ++ c :: unescape b) ∧
    (∀ s, (∀ e c, Escape e c → ¬ e <:+: s) → unescape s = s) ∧
    (∀ c, (∃ e, Escape e c) ↔ c.toNat ≤ 999) ∧
    ∀ s t, Encoding s t → unescape t = s ∧
      ('\n' ∉ t → parse (String.ofList ("string@".toList ++ t)) =
          .ok (.constant (.str (Text.ofChars s)))) := by
  refine ⟨fun a b e c escape => unescape_append_escape escape a b, fun s => unescape_of_no_escape,
    fun c => exists_escape_iff, fun s t encoding => ⟨encoding.unescape, fun single => ?_⟩⟩
  have denotes : Denotes ("string".toList ++ '@' :: t)
      (.constant (.str (Text.ofChars (unescape t)))) :=
    .constant (t := .string) rfl single (.inl rfl) (.text t)
  rw [encoding.unescape] at denotes
  exact parse_of_denotes denotes

/-- The escape of a backslash before digits gives a backslash before digits, which is not decoded
again. -/
theorem escaped_backslash_kept :
    Encoding ['\\', '0', '6', '5'] ['\\', '0', '9', '2', '0', '6', '5'] ∧
      unescape ['\\', '0', '9', '2', '0', '6', '5'] = ['\\', '0', '6', '5'] ∧
      unescape ['\\', '0', '6', '5'] = ['A'] := by
  have backslash : Escape ['\\', '0', '9', '2'] '\\' :=
    .of_digits (by decide) (by decide) (by decide)
  have letter : Escape ['\\', '0', '6', '5'] 'A' := .of_digits (by decide) (by decide) (by decide)
  have encoding : Encoding ['\\', '0', '6', '5'] ['\\', '0', '9', '2', '0', '6', '5'] :=
    .escaped backslash (.plain (by decide) (.plain (by decide) (.plain (by decide) .nil)))
  obtain ⟨decoded, -, -, recovered⟩ := escapes_decoded_once
  exact ⟨encoding, (recovered _ _ encoding).1, decoded [] [] _ _ letter⟩

end TacBench.Operand
