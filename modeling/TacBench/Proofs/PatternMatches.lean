import TacBench.Pattern

/-! What can be said of all matches of a pattern without looking at a text: how many characters they
take at least, which groups may take part and which must, and which group ends with the match. None
of it depends on the alphabet, and it holds of whatever an engine finds. -/
namespace TacBench.Pattern

variable {a : Alphabet} {p : Pattern} {c d e : Cursor} {s : List Char} {m : Match}
  {ns ks : List Nat} {n k w v : Nat}

/-- A number of characters that every match takes. -/
def minWidth : Pattern → Nat
  | .empty | .textEnd | .optional _ | .many _ | .behind .. => 0
  | .char .. | .any | .oneOf .. => 1
  | .seq p q => minWidth p + minWidth q
  | .either p q => min (minWidth p) (minWidth q)
  | .group _ p => minWidth p

/-- The groups that may take part in a match. -/
def groupNumbers : Pattern → List Nat
  | .empty | .textEnd | .char .. | .any | .oneOf .. => []
  | .seq p q | .either p q => groupNumbers p ++ groupNumbers q
  | .optional p | .many p | .behind _ p => groupNumbers p
  | .group n p => n :: groupNumbers p

/-- Groups that take part in every match. -/
def certainGroups : Pattern → List Nat
  | .empty | .textEnd | .char .. | .any | .oneOf .. | .optional _ | .many _ => []
  | .seq p q => certainGroups p ++ certainGroups q
  | .either p q => (certainGroups p).filter (· ∈ certainGroups q)
  | .behind _ p => certainGroups p
  | .group n p => n :: certainGroups p

/-- The group with which a match ends, if the pattern ends in one. -/
def closing? : Pattern → Option Nat
  | .group n _ => some n
  | .seq _ q => closing? q
  | _ => none

theorem Alphabet.size_append (a : Alphabet) (s t : List Char) :
    a.size (s ++ t) = a.size s + a.size t := by
  induction s with
  | nil => exact (Nat.zero_add _).symm
  | cons x s ih => simp only [List.cons_append, Alphabet.size, ih, Nat.add_assoc]

theorem Alphabet.size_reverse (a : Alphabet) (s : List Char) : a.size s.reverse = a.size s := by
  induction s with
  | nil => rfl
  | cons x s ih =>
    rw [List.reverse_cons, Alphabet.size_append, ih]
    exact Nat.add_comm _ _

theorem Alphabet.length_le_size (a : Alphabet) (s : List Char) : s.length ≤ a.size s := by
  induction s with
  | nil => exact Nat.le_refl 0
  | cons x s ih =>
    have one := a.units_pos x
    rw [Alphabet.size, List.length_cons]
    omega

/-- No place is behind the end of the text. -/
theorem position_le_size (a : Alphabet) (c : Cursor) : c.position a ≤ a.size c.text := by
  rw [Cursor.text, Alphabet.size_append, Alphabet.size_reverse]
  exact Nat.le_add_right _ _

/-- Between two places at least `w` characters are taken, and the groups closed there have the given
numbers. -/
structure Moves (w : Nat) (ns : List Nat) (c d : Cursor) : Prop where
  taken : ∃ l, w ≤ l.length ∧ d.before = l ++ c.before ∧ c.after = l.reverse ++ d.after
  groups : ∃ new, d.groups = new ++ c.groups ∧ ∀ g ∈ new, g.1 ∈ ns

namespace Moves

theorem refl (ns : List Nat) (c : Cursor) : Moves 0 ns c c :=
  ⟨⟨[], Nat.le_refl 0, rfl, rfl⟩, [], rfl, List.forall_mem_nil _⟩

theorem weaken (moves : Moves w ns c d) (fewer : v ≤ w) (wider : ns ⊆ ks) : Moves v ks c d := by
  obtain ⟨⟨l, width, places⟩, new, groups, numbers⟩ := moves
  exact ⟨⟨l, Nat.le_trans fewer width, places⟩, new, groups,
    fun g member => wider (numbers g member)⟩

theorem trans (first : Moves w ns c d) (second : Moves v ks d e) :
    Moves (w + v) (ns ++ ks) c e := by
  obtain ⟨⟨l, width, before, after⟩, new, groups, numbers⟩ := first
  obtain ⟨⟨l', width', before', after'⟩, new', groups', numbers'⟩ := second
  refine ⟨⟨l' ++ l, ?_, ?_, ?_⟩, new' ++ new, by rw [groups', groups, List.append_assoc], ?_⟩
  · rw [List.length_append]
    omega
  · rw [before', before, List.append_assoc]
  · rw [after, after', List.reverse_append, List.append_assoc]
  · intro g member
    rcases List.mem_append.mp member with later | earlier
    · exact List.mem_append_right ns (numbers' g later)
    · exact List.mem_append_left ks (numbers g earlier)

theorem take (x : Char) (before after : List Char) (groups : List (Nat × Span)) :
    Moves 1 [] ⟨before, x :: after, groups⟩ ⟨x :: before, after, groups⟩ :=
  ⟨⟨[x], Nat.le_refl 1, rfl, rfl⟩, [], rfl, List.forall_mem_nil _⟩

theorem close (moves : Moves w ns c d) (a : Alphabet) (n : Nat) (opened : Cursor) :
    Moves w (n :: ns) c (d.close a n opened) := by
  obtain ⟨taken, new, groups, numbers⟩ := moves
  refine ⟨taken, (n, ⟨opened.position a, d.position a⟩) :: new,
    by rw [Cursor.close, groups]; rfl, ?_⟩
  intro g member
  rcases List.mem_cons.mp member with rfl | other
  · exact List.mem_cons_self
  · exact List.mem_cons_of_mem n (numbers g other)

theorem text (moves : Moves w ns c d) : d.text = c.text := by
  obtain ⟨⟨l, -, before, after⟩, -⟩ := moves
  rw [Cursor.text, Cursor.text, before, after, List.reverse_append, List.append_assoc]

theorem position (moves : Moves w ns c d) (a : Alphabet) : c.position a + w ≤ d.position a := by
  obtain ⟨⟨l, width, before, -⟩, -⟩ := moves
  have size := a.length_le_size l
  rw [Cursor.position, Cursor.position, before, Alphabet.size_append]
  omega

end Moves

/-- A pattern goes on by its width at least and closes no groups but its own. -/
theorem Leads.moves (leads : Leads a p c d) : Moves p.minWidth p.groupNumbers c d := by
  induction leads with
  | empty | atEnd | beforeBreak | absent | stop => exact .refl _ _
  | char | any | oneOf => exact .take _ _ _ _
  | seq _ _ first second => exact first.trans second
  | left _ ih => exact ih.weaken (Nat.min_le_left ..) (List.subset_append_left ..)
  | right _ ih => exact ih.weaken (Nat.min_le_right ..) (List.subset_append_right ..)
  | present _ ih => exact ih.weaken (Nat.zero_le _) (List.Subset.refl _)
  | again _ _ once more => exact (once.trans more).weaken (Nat.zero_le _) (by simp [groupNumbers])
  | group _ ih => exact ih.close a _ _
  | behind _ _ _ ih => exact ⟨⟨[], Nat.le_refl 0, rfl, rfl⟩, ih.groups⟩

theorem Leads.closing (leads : Leads a p c d) (closes : p.closing? = some n) :
    ∃ first rest, d.groups = (n, ⟨first, d.position a⟩) :: rest := by
  induction leads with
  | group =>
    cases closes
    exact ⟨_, _, rfl⟩
  | seq _ _ _ second => exact second closes
  | _ => cases closes

theorem Leads.mem_groups (leads : Leads a p c d) (taken : n ∈ c.groups.map (·.1)) :
    n ∈ d.groups.map (·.1) := by
  obtain ⟨new, groups, -⟩ := leads.moves.groups
  rw [groups, List.map_append]
  exact List.mem_append_right _ taken

theorem Leads.certain (leads : Leads a p c d) (member : n ∈ p.certainGroups) :
    n ∈ d.groups.map (·.1) := by
  induction leads with
  | seq _ after first second =>
    rcases List.mem_append.mp member with earlier | later
    · exact after.mem_groups (first earlier)
    · exact second later
  | left _ ih => exact ih (List.mem_filter.mp member).1
  | right _ ih => exact ih (of_decide_eq_true (List.mem_filter.mp member).2)
  | group _ ih =>
    rcases List.mem_cons.mp member with rfl | inner
    · exact List.mem_cons_self
    · exact List.mem_cons_of_mem _ (ih inner)
  | behind _ _ _ ih => exact ih member
  | _ => cases member

theorem newest?_isSome_iff {gs : List (Nat × Span)} :
    (newest? n gs).isSome = true ↔ n ∈ gs.map (·.1) := by
  simp [newest?, List.find?_isSome]

theorem foldl_max_le {gs : List (Nat × Span)} (start : k ≤ n) (bound : ∀ g ∈ gs, g.1 ≤ n) :
    gs.foldl (fun k g => max k g.1) k ≤ n := by
  induction gs generalizing k with
  | nil => exact start
  | cons g gs ih =>
    obtain ⟨first, rest⟩ := List.forall_mem_cons.mp bound
    exact ih (Nat.max_le.mpr ⟨start, first⟩) rest

theorem le_foldl_max {gs : List (Nat × Span)} (least : n ≤ k ∨ n ∈ gs.map (·.1)) :
    n ≤ gs.foldl (fun k g => max k g.1) k := by
  induction gs generalizing k with
  | nil => exact least.resolve_right (by simp)
  | cons g gs ih =>
    refine ih ?_
    rcases least with small | member
    · exact .inl (Nat.le_trans small (Nat.le_max_left ..))
    · rcases List.mem_cons.mp member with rfl | later
      · exact .inl (Nat.le_max_right ..)
      · exact .inr later

namespace Match.IsFrom

variable {b : Cursor} (found : m.IsFrom a p b d)
include found

theorem mem_groups_iff : n ∈ m.groups.map (·.1) ↔ n ∈ d.groups.map (·.1) := by
  rw [← newest?_isSome_iff, ← newest?_isSome_iff, ← found.groups n, Match.group?]

theorem certain (member : n ∈ p.certainGroups) : (m.group? n).isSome = true :=
  newest?_isSome_iff.mpr (found.mem_groups_iff.mpr (found.leads.certain member))

/-- The group with which a match ends, if it has the highest number of all. -/
theorem lastGroup (closes : p.closing? = some n) (highest : ∀ k ∈ p.groupNumbers, k ≤ n) :
    m.lastGroup = n ∧ ∃ first, m.group? n = some ⟨first, m.span.stop⟩ := by
  obtain ⟨first, rest, groups⟩ := found.leads.closing closes
  have last : n ∈ m.groups.map (·.1) := found.mem_groups_iff.mpr (groups ▸ List.mem_cons_self)
  have bound : ∀ g ∈ m.groups, g.1 ≤ n := by
    intro g member
    have closed := found.mem_groups_iff.mp (List.mem_map_of_mem member)
    obtain ⟨new, all, numbers⟩ := found.leads.moves.groups
    rw [all, found.fresh, List.append_nil] at closed
    obtain ⟨h, inside, same⟩ := List.mem_map.mp closed
    exact same ▸ highest h.1 (numbers h inside)
  constructor
  · exact Nat.le_antisymm (foldl_max_le (Nat.zero_le n) bound) (le_foldl_max (.inr last))
  · refine ⟨first, ?_⟩
    rw [found.groups, found.span, groups]
    simp [newest?]

/-- A match lies within the text and takes the width of its pattern at least. -/
theorem within : m.span.start + p.minWidth ≤ m.span.stop ∧ m.span.stop ≤ a.size b.text := by
  have moves := found.leads.moves
  rw [found.span]
  exact ⟨moves.position a, moves.text ▸ position_le_size a d⟩

end Match.IsFrom

theorem minWidth_literal (s : List Char) : (literal s).minWidth = s.length := by
  induction s with
  | nil => rfl
  | cons c s ih =>
    have first : (literal (c :: s)).minWidth = 1 + (literal s).minWidth := rfl
    rw [first, ih, List.length_cons, Nat.add_comm]

end TacBench.Pattern
