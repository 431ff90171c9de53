import TacBench.Pattern.Backtracking
import TacBench.Proofs.PatternMatches

/-! Backtracking finds what there is to find. The places that it tries are exactly those to which a
pattern leads, as far as the groups are left aside: rounds of a repetition that take nothing are
dropped. So the match that it gives begins first at or behind the place where the search starts. -/
namespace TacBench.Pattern

variable {a : Alphabet} {p : Pattern} {c c' d d' e : Cursor} {s before : List Char}

/-- The same place, whatever groups have been matched. -/
structure Cursor.Beside (c d : Cursor) : Prop where
  before : c.before = d.before
  after : c.after = d.after

theorem Cursor.Beside.trans (first : c.Beside d) (second : d.Beside e) : c.Beside e :=
  ⟨first.before.trans second.before, first.after.trans second.after⟩

theorem Cursor.Beside.back (same : c.Beside d) (n : Nat) : (c.back n).Beside (d.back n) := by
  refine ⟨congrArg (List.drop n) same.before, ?_⟩
  simp only [Cursor.back, same.before, same.after]

/-! What is tried is a match. -/

theorem eq_of_mem_take {q : Char → Bool} (member : d ∈ c.take q) :
    ∃ x rest, q x = true ∧ c = ⟨c.before, x :: rest, c.groups⟩ ∧
      d = ⟨x :: c.before, rest, c.groups⟩ := by
  obtain ⟨before, after, groups⟩ := c
  cases after with
  | nil => cases member
  | cons x rest =>
    by_cases accepted : q x = true
    · simp only [Cursor.take, accepted, ↓reduceIte] at member
      exact ⟨x, rest, accepted, rfl, List.mem_singleton.mp member⟩
    · simp only [Cursor.take, accepted, Bool.false_eq_true, ↓reduceIte] at member
      cases member

theorem leads_of_mem_repeated {step : Cursor → List Cursor}
    (steps : ∀ {c d}, d ∈ step c → Leads a p c d) {n : Nat} (member : d ∈ repeated step n c) :
    Leads a (.many p) c d := by
  induction n generalizing c with
  | zero =>
    obtain rfl := List.mem_singleton.mp member
    exact .stop
  | succ n ih =>
    rw [repeated, List.mem_append, List.mem_flatMap] at member
    rcases member with ⟨e, once, more⟩ | none
    · split at more
      · exact .again (steps once) (ih more)
      · cases more
    · obtain rfl := List.mem_singleton.mp none
      exact .stop

theorem leads_of_mem_ends (member : d ∈ p.ends a c) : Leads a p c d := by
  induction p generalizing c d with
  | empty =>
    obtain rfl := List.mem_singleton.mp member
    exact .empty
  | char ignoreCase x =>
    obtain ⟨y, rest, same, here, rfl⟩ := eq_of_mem_take member
    exact here ▸ .char same
  | any =>
    obtain ⟨y, rest, inside, here, rfl⟩ := eq_of_mem_take member
    exact here ▸ .any (by simpa using inside)
  | oneOf ignoreCase members =>
    obtain ⟨y, rest, accepted, here, rfl⟩ := eq_of_mem_take member
    obtain ⟨m, listed, same⟩ := List.any_eq_true.mp accepted
    exact here ▸ .oneOf listed same
  | textEnd =>
    obtain ⟨before, after, groups⟩ := c
    rw [ends] at member
    split at member
    · rename_i last
      obtain rfl := List.mem_singleton.mp member
      rcases last with rfl | ⟨single, breaks⟩
      · exact .atEnd
      · obtain ⟨x, rfl⟩ := List.length_eq_one_iff.mp single
        exact .beforeBreak (by simpa using breaks)
    · cases member
  | seq p q first second =>
    obtain ⟨e, before, after⟩ := List.mem_flatMap.mp member
    exact .seq (first before) (second after)
  | either p q left right =>
    rcases List.mem_append.mp member with chosen | other
    · exact .left (left chosen)
    · exact .right (right other)
  | optional p ih =>
    rcases List.mem_append.mp member with once | none
    · exact .present (ih once)
    · obtain rfl := List.mem_singleton.mp none
      exact .absent
  | many p ih => exact leads_of_mem_repeated ih member
  | group n p ih =>
    obtain ⟨e, inside, rfl⟩ := List.mem_map.mp member
    exact .group (ih inside)
  | behind width p ih =>
    rw [ends] at member
    split at member
    · rename_i deep
      obtain ⟨e, looked, rfl⟩ := List.mem_map.mp member
      have found := Option.mem_toList.mp looked
      have here := List.find?_some found
      exact .behind deep (ih (List.mem_of_find?_eq_some found)) (of_decide_eq_true here)
    · cases member

/-! Every match is tried, up to its groups. -/

/-- From every cursor at the one place a cursor at the other is tried. -/
def Tries (step : Cursor → List Cursor) (c d : Cursor) : Prop :=
  ∀ c', c'.Beside c → ∃ d' ∈ step c', d'.Beside d

theorem Tries.stay {step : Cursor → List Cursor}
    (tried : ∀ c' : Cursor, c'.after = c.after → c' ∈ step c') : Tries step c c :=
  fun c' same => ⟨c', tried c' same.after, same⟩

theorem Tries.mono {step step' : Cursor → List Cursor} (tries : Tries step c d)
    (among : ∀ c', step c' ⊆ step' c') : Tries step' c d := by
  intro c' same
  obtain ⟨d', member, there⟩ := tries c' same
  exact ⟨d', among c' member, there⟩

theorem Tries.take {q : Char → Bool} {x : Char} {rest : List Char} {groups : List (Nat × Span)}
    (accepted : q x = true) :
    Tries (Cursor.take q) ⟨before, x :: rest, groups⟩ ⟨x :: before, rest, groups⟩ := by
  rintro ⟨before', after', groups'⟩ ⟨same, tail⟩
  obtain rfl : before' = before := same
  obtain rfl : after' = x :: rest := tail
  refine ⟨⟨x :: before', rest, groups'⟩, ?_, rfl, rfl⟩
  simp only [Cursor.take, accepted, ↓reduceIte, List.mem_singleton]

/-- A match that takes nothing leads nowhere. -/
theorem Leads.beside (leads : Leads a p c d) (nothing : ¬ d.after.length < c.after.length) :
    c.Beside d := by
  obtain ⟨l, -, before, after⟩ := leads.moves.taken
  obtain rfl : l = [] := by
    rw [after, List.length_append, List.length_reverse] at nothing
    exact List.length_eq_zero_iff.mp (by omega)
  exact ⟨before.symm, after⟩

/-- More rounds than there are characters change nothing. -/
theorem repeated_eq (step : Cursor → List Cursor) {n k : Nat} (enough : c.after.length ≤ n)
    (also : c.after.length ≤ k) : repeated step n c = repeated step k c := by
  have idle (k : Nat) {c : Cursor} (none : c.after.length ≤ 0) : repeated step k c = [c] := by
    cases k with
    | zero => rfl
    | succ k => simp [repeated, Nat.le_zero.mp none]
  induction n generalizing c k with
  | zero => rw [idle 0 enough, idle k enough]
  | succ n ih =>
    cases k with
    | zero => rw [idle (n + 1) also, idle 0 also]
    | succ k =>
      rw [repeated, repeated]
      congr 2
      funext d
      split
      · exact ih (by omega) (by omega)
      · rfl

theorem mem_repeated_of_step {step : Cursor → List Cursor} (once : d ∈ step c)
    (further : d.after.length < c.after.length) (more : e ∈ repeated step d.after.length d) :
    e ∈ repeated step c.after.length c := by
  obtain ⟨n, length⟩ : ∃ n, c.after.length = n + 1 := Nat.exists_eq_add_one.mpr (by omega)
  rw [length, repeated, List.mem_append, List.mem_flatMap]
  refine .inl ⟨d, once, ?_⟩
  rw [if_pos further, repeated_eq step (by omega) (Nat.le_refl d.after.length)]
  exact more

theorem Leads.tries (leads : Leads a p c d) : Tries (p.ends a) c d := by
  induction leads with
  | empty => exact .stay fun _ _ => List.mem_singleton_self _
  | char same => exact .take same
  | any inside => exact .take (by simpa using inside)
  | oneOf listed same => exact .take (List.any_eq_true.mpr ⟨_, listed, same⟩)
  | atEnd => exact .stay fun c' after => by simp [ends, after]
  | beforeBreak breaks => exact .stay fun c' after => by simp [ends, after, breaks]
  | seq _ _ first second =>
    intro c' same
    obtain ⟨d', before, there⟩ := first c' same
    obtain ⟨e', after, end_⟩ := second d' there
    exact ⟨e', List.mem_flatMap.mpr ⟨d', before, after⟩, end_⟩
  | left _ ih => exact ih.mono fun _ => List.subset_append_left _ _
  | right _ ih => exact ih.mono fun _ => List.subset_append_right _ _
  | absent => exact .stay fun _ _ => List.mem_append_right _ (List.mem_singleton_self _)
  | present _ ih => exact ih.mono fun _ => List.subset_append_left _ _
  | stop =>
    refine .stay fun c' _ => ?_
    rw [ends]
    cases c'.after.length with
    | zero => exact List.mem_singleton_self _
    | succ n => exact List.mem_append_right _ (List.mem_singleton_self _)
  | @again p c d e once more ih rest =>
    intro c' same
    by_cases further : d.after.length < c.after.length
    · obtain ⟨d', member, there⟩ := ih c' same
      obtain ⟨e', later, last⟩ := rest d' there
      rw [← there.after, ← same.after] at further
      exact ⟨e', mem_repeated_of_step member further later, last⟩
    · exact rest c' (same.trans (once.beside further))
  | @group n p c d inside ih =>
    intro c' same
    obtain ⟨d', member, there⟩ := ih c' same
    exact ⟨d'.close a n c', List.mem_map_of_mem member, there.before, there.after⟩
  | @behind width p c d deep inside here ih =>
    intro c' same
    obtain ⟨d', member, there⟩ := ih (c'.back width) (same.back width)
    have deep' : width ≤ c'.before.length := same.before ▸ deep
    have seen : d'.before = c'.before := there.before.trans (here.trans same.before.symm)
    have some : ((p.ends a (c'.back width)).find? (·.before = c'.before)).isSome = true :=
      List.find?_isSome.mpr ⟨d', member, decide_eq_true seen⟩
    obtain ⟨e, found⟩ := Option.isSome_iff_exists.mp some
    refine ⟨{ c' with groups := e.groups }, ?_, same.before, same.after⟩
    rw [ends, if_pos deep', found]
    exact List.mem_singleton_self _

/-! The places of a text stand in order. -/

theorem mem_places : c ∈ places before s ↔
    c.groups = [] ∧ ∃ l, c.before = l ++ before ∧ s = l.reverse ++ c.after := by
  obtain ⟨before', after', groups'⟩ := c
  induction s generalizing before with
  | nil =>
    rw [places, List.mem_singleton]
    constructor
    · rintro ⟨rfl, rfl, rfl⟩
      exact ⟨rfl, [], rfl, rfl⟩
    · rintro ⟨rfl, l, same, nothing⟩
      obtain ⟨none, rfl⟩ := List.append_eq_nil_iff.mp nothing.symm
      obtain rfl := List.reverse_eq_nil_iff.mp none
      obtain rfl : before' = before := same
      rfl
  | cons x s ih =>
    rw [places, List.mem_cons, ih]
    constructor
    · rintro (⟨rfl, rfl, rfl⟩ | ⟨fresh, l, rfl, rfl⟩)
      · exact ⟨rfl, [], rfl, rfl⟩
      · exact ⟨fresh, l ++ [x], by simp, by simp⟩
    · rintro ⟨rfl, l, same, split⟩
      rcases List.eq_nil_or_concat l with rfl | ⟨l, y, rfl⟩
      · obtain rfl : before' = before := same
        exact .inl (by rw [split]; rfl)
      · rw [List.concat_eq_append, List.reverse_append, List.reverse_singleton, List.append_assoc,
          List.singleton_append, List.cons.injEq] at split
        obtain ⟨rfl, rest⟩ := split
        exact .inr ⟨rfl, l, by simpa using same, rest⟩

/-- All places of a text are tried. -/
theorem mem_places_iff : c ∈ places [] s ↔ c.groups = [] ∧ c.text = s := by
  rw [mem_places]
  refine and_congr_right fun _ => ⟨?_, fun same => ⟨c.before, (List.append_nil _).symm, same.symm⟩⟩
  rintro ⟨l, same, split⟩
  rw [List.append_nil] at same
  rw [Cursor.text, same, split]

theorem places_ordered (a : Alphabet) (before s : List Char) :
    (places before s).Pairwise fun c d => c.position a < d.position a := by
  induction s generalizing before with
  | nil => exact List.pairwise_singleton _ _
  | cons x s ih =>
    refine .cons (fun c member => ?_) (ih (x :: before))
    obtain ⟨-, l, same, -⟩ := mem_places.mp member
    have one := a.units_pos x
    simp only [Cursor.position, same, Alphabet.size_append, Alphabet.size]
    omega

theorem matchAt?_ne_none (leads : Leads a p c d) (same : c'.Beside c) : p.matchAt? a c' ≠ none := by
  obtain ⟨d', member, -⟩ := leads.tries c' same
  rw [matchAt?, Ne, Option.map_eq_none_iff, List.head?_eq_none_iff]
  exact List.ne_nil_of_mem member

theorem isFrom_of_matchAt? {m : Match} (fresh : c.groups = []) (found : p.matchAt? a c = some m) :
    ∃ d, m.IsFrom a p c d := by
  obtain ⟨d, first, rfl⟩ := Option.map_eq_some_iff.mp found
  exact ⟨d, fresh, leads_of_mem_ends (List.mem_of_mem_head? first), rfl, fun _ => rfl⟩

theorem isFrom_of_firstMatch? {m : Match} {start : Nat} (found : p.firstMatch? a s start = some m) :
    ∃ b d, b.text = s ∧ start ≤ b.position a ∧ m.IsFrom a p b d ∧
      ∀ b' d', b'.text = s → start ≤ b'.position a → Leads a p b' d' →
        b.position a ≤ b'.position a := by
  obtain ⟨earlier, b, later, listed, here, none⟩ := List.findSome?_eq_some_iff.mp found
  have tried : b ∈ (places [] s).filter (start ≤ ·.position a) := by
    rw [listed]
    exact List.mem_append_right _ List.mem_cons_self
  obtain ⟨place, behind⟩ := List.mem_filter.mp tried
  obtain ⟨fresh, text⟩ := mem_places_iff.mp place
  obtain ⟨d, isFrom⟩ := isFrom_of_matchAt? fresh here
  refine ⟨b, d, text, of_decide_eq_true behind, isFrom, fun b' d' text' behind' leads => ?_⟩
  have other : { b' with groups := [] } ∈ earlier ++ b :: later := by
    rw [← listed, List.mem_filter]
    exact ⟨mem_places_iff.mpr ⟨rfl, text'⟩, decide_eq_true behind'⟩
  have ordered := (places_ordered a [] s).filter (start ≤ ·.position a)
  rw [listed] at ordered
  rcases List.mem_append.mp other with before | rest
  · exact absurd (none _ before) (matchAt?_ne_none leads ⟨rfl, rfl⟩)
  · rcases List.mem_cons.mp rest with same | after
    · exact Nat.le_of_eq (congrArg (Cursor.position a) same).symm
    · have further := (List.pairwise_cons.mp (List.pairwise_append.mp ordered).2.1).1 _ after
      exact Nat.le_of_lt further

theorem not_leads_of_firstMatch? {start : Nat} (missed : p.firstMatch? a s start = none)
    (text : c.text = s) (behind : start ≤ c.position a) : ¬ Leads a p c d := by
  intro leads
  have tried : { c with groups := [] } ∈ (places [] s).filter (start ≤ ·.position a) :=
    List.mem_filter.mpr ⟨mem_places_iff.mpr ⟨rfl, text⟩, decide_eq_true behind⟩
  have none := List.findSome?_eq_none_iff.mp missed _ tried
  exact absurd none (matchAt?_ne_none leads ⟨rfl, rfl⟩)

/-- Backtracking gives the first match at or behind a place. -/
theorem backtracking_findsFirst (a : Alphabet) : (Engine.backtracking a).FindsFirst where
  found := isFrom_of_firstMatch?
  missed missed _ _ text behind := not_leads_of_firstMatch? missed text behind

end TacBench.Pattern
