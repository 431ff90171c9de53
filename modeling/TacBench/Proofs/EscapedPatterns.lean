import TacBench.Editor.CurrentWord
import TacBench.Pattern.Parse

/-! Escaped texts as patterns. Every sign that has a meaning in patterns is escaped, so that an
escaped text is read character by character, and nothing in it repeats what is before. The pattern
matches where the text itself stands, in any case. -/
namespace TacBench.Pattern

open Editor.CurrentWord

variable {a : Alphabet} {c d : Cursor}

/-- How a character of an escaped text is read. -/
def escapedItem (c : Char) : Pattern :=
  if special.contains c then .oneOf true [.char c] else .char true c

theorem escape_cons (c : Char) (s : List Char) :
    escape (c :: s) = (if special.contains c then ['\\', c] else [c]) ++ escape s := rfl

/-- An escaped text does not begin with a repetition sign. -/
theorem head?_escape {s : List Char} {x : Char} (first : x ∈ (escape s).head?) :
    x ∉ ['?', '*', '+'] := by
  cases s with
  | nil => cases first
  | cons c s =>
    rw [escape_cons] at first
    split at first
    · obtain rfl : '\\' = x := by simpa using first
      decide
    · rename_i plain
      obtain rfl : c = x := by simpa using first
      intro sign
      have listed : ∀ y ∈ ['?', '*', '+'], special.contains y = true :=
        List.all_eq_true.mp (by decide)
      exact plain (listed c sign)

theorem repetition_escape (p : Pattern) (s : List Char) :
    repetition p (escape s) = (p, escape s) := by
  have first := fun x => head?_escape (s := s) (x := x)
  unfold repetition
  split
  · rename_i rest same
    exact absurd (by simp) (first '?' (by simp [same]))
  · rename_i rest same
    exact absurd (by simp) (first '*' (by simp [same]))
  · rename_i rest same
    exact absurd (by simp) (first '+' (by simp [same]))
  · rfl

theorem escaped_of_special {c : Char} (listed : special.contains c = true) :
    escaped c = .char c := by
  have all : ∀ y ∈ special, escaped y = .char y := by
    have check : (special.all fun y => escaped y == .char y) = true := by decide
    intro y member
    simpa using List.all_eq_true.mp check y member
  exact all c (List.contains_iff_mem.mp listed)

theorem choices_ignoreCase (current : Pattern) (rest : List Char) (ignoreCase : Bool)
    (groups fuel : Nat) :
    choices none current (fuel + 1) ⟨'(' :: '?' :: 'i' :: ')' :: rest, ignoreCase, groups⟩ =
      choices none current fuel ⟨rest, true, groups⟩ := by
  simp only [choices]

theorem choices_backslash {p : Pattern} (current : Pattern) (c : Char) (rest : List Char)
    (groups fuel : Nat) (item : p = .oneOf true [escaped c])
    (single : repetition p rest = (p, rest)) :
    choices none current (fuel + 1) ⟨'\\' :: c :: rest, true, groups⟩ =
      choices none (.seq current p) fuel ⟨rest, true, groups⟩ := by
  subst item
  rw [choices]
  simp only [single]

theorem choices_plain (current : Pattern) {c : Char} (plain : ¬ special.contains c = true)
    (rest : List Char) (groups fuel : Nat)
    (single : repetition (.char true c) rest = (.char true c, rest)) :
    choices none current (fuel + 1) ⟨c :: rest, true, groups⟩ =
      choices none (.seq current (.char true c)) fuel ⟨rest, true, groups⟩ := by
  have other : ∀ y ∈ special, c ≠ y := by
    rintro y listed rfl
    exact plain (List.contains_iff_mem.mpr listed)
  rw [choices]
  dsimp only
  split
  case h_1 empty => cases empty
  case h_11 same =>
    cases same
    rw [single]
  -- Every other sign with a meaning of its own is special.
  all_goals
    rename_i same
    exact absurd (List.cons.inj same).1 (other _ (by decide))

/-- An escaped text is read to its end, one item for each character. -/
theorem choices_escape (s : List Char) (current : Pattern) (groups fuel : Nat)
    (enough : s.length < fuel) :
    choices none current fuel ⟨escape s, true, groups⟩ =
      some (s.foldl (fun p c => .seq p (escapedItem c)) current, ⟨[], true, groups⟩) := by
  induction s generalizing current fuel with
  | nil =>
    obtain ⟨fuel, rfl⟩ := Nat.exists_eq_add_of_lt enough
    rfl
  | cons c s ih =>
    obtain ⟨fuel, rfl⟩ := Nat.exists_eq_add_of_lt (Nat.zero_lt_of_lt enough)
    rw [Nat.zero_add] at enough ⊢
    have rest := fun q => ih (.seq current q) fuel (by simpa using enough)
    rw [List.foldl_cons, ← rest, escape_cons, escapedItem]
    split
    · rename_i listed
      rw [← escaped_of_special listed]
      exact choices_backslash current c (escape s) groups fuel rfl (repetition_escape _ s)
    · rename_i plain
      exact choices_plain current plain (escape s) groups fuel (repetition_escape _ s)

theorem leads_escapedItem {x : Char} :
    Leads a (escapedItem x) c d ↔ Leads a (.char true x) c d := by
  unfold escapedItem
  split
  · constructor
    · rintro (_ | _ | _ | ⟨listed, same⟩)
      rw [List.mem_singleton.mp listed] at same
      exact .char same
    · rintro (_ | ⟨same⟩)
      exact .oneOf (List.mem_singleton_self _) same
  · rfl

theorem leads_seq {p q : Pattern} :
    Leads a (.seq p q) c d ↔ ∃ e, Leads a p c e ∧ Leads a q e d := by
  constructor
  · rintro (_ | _ | _ | _ | _ | _ | ⟨first, second⟩)
    exact ⟨_, first, second⟩
  · rintro ⟨e, first, second⟩
    exact .seq first second

theorem leads_foldl {s : List Char} {current : Pattern} :
    Leads a (s.foldl (fun p x => .seq p (escapedItem x)) current) c d ↔
      ∃ e, Leads a current c e ∧ Leads a (literal s) e d := by
  induction s generalizing current with
  | nil =>
    constructor
    · exact fun leads => ⟨d, leads, .empty⟩
    · rintro ⟨e, leads, _ | _⟩
      exact leads
  | cons x s ih =>
    have first : literal (x :: s) = .seq (.char true x) (literal s) := rfl
    simp only [List.foldl_cons, ih, first, leads_seq, leads_escapedItem]
    constructor
    · rintro ⟨k, ⟨e, leads, one⟩, rest⟩
      exact ⟨e, leads, k, one, rest⟩
    · rintro ⟨e, leads, k, one, rest⟩
      exact ⟨k, ⟨e, leads, one⟩, rest⟩

theorem length_le_escape (s : List Char) : s.length ≤ (escape s).length := by
  induction s with
  | nil => exact Nat.le_refl 0
  | cons c s ih =>
    rw [escape_cons, List.length_append]
    split <;> simp only [List.length_cons, List.length_nil] <;> omega

/-- An escaped text is read as a pattern for the text itself. -/
theorem ofText?_escape (s : List Char) :
    ∃ p, ofText? ("(?i)" ++ String.ofList (escape s)) = some p ∧
      ∀ a c d, Leads a p c d ↔ Leads a (literal s) c d := by
  have letters : ("(?i)" ++ String.ofList (escape s)).toList = '(' :: '?' :: 'i' :: ')' ::
      escape s := by
    simp only [String.toList_append, String.toList_ofList]
    rfl
  have enough : s.length < (escape s).length + 4 :=
    Nat.lt_add_right 3 (Nat.lt_succ_of_le (length_le_escape s))
  have read := choices_escape s .empty 0 ((escape s).length + 4) enough
  refine ⟨_, ?_, fun a c d => leads_foldl.trans ⟨?_, fun leads => ⟨c, .empty, leads⟩⟩⟩
  · unfold ofText?
    rw [letters]
    dsimp only [List.length_cons]
    rw [choices_ignoreCase, read]
    rfl
  · rintro ⟨e, _ | _, leads⟩
    exact leads

end TacBench.Pattern
