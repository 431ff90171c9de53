import TacBench.Text.Blank
import TacBench.Text.Lines

/-! Runs of characters between those of a class: words between blanks, lines between breaks. Where
runs are empty does not matter to them, so that a carriage return before a line feed is no special
case. -/
namespace TacBench.Text

variable {α : Type} {p : α → Bool} {s t w before after : List α} {b : α}

theorem stripBy_parts (p : α → Bool) (s : List α) :
    ∃ before after, s = before ++ (stripBy p s ++ after) ∧ (∀ c ∈ before, p c = true) ∧
      ∀ c ∈ after, p c = true := by
  have front := List.takeWhile_append_dropWhile (p := p) (l := s)
  have back := List.takeWhile_append_dropWhile (p := p) (l := (s.dropWhile p).reverse)
  refine ⟨s.takeWhile p, ((s.dropWhile p).reverse.takeWhile p).reverse, ?_, ?_, ?_⟩
  · have turned := congrArg List.reverse back
    rw [List.reverse_append, List.reverse_reverse] at turned
    unfold stripBy
    rw [turned, front]
  · intro c member
    exact List.all_eq_true.mp List.all_takeWhile c member
  · intro c member
    exact List.all_eq_true.mp List.all_takeWhile c (List.mem_reverse.mp member)

theorem stripBy_surrounded (blank : ∀ c ∈ before, p c = true) (blank' : ∀ c ∈ after, p c = true)
    (s : List α) : stripBy p (before ++ (s ++ after)) = stripBy p s := by
  unfold stripBy
  rw [List.dropWhile_append_of_pos blank, List.dropWhile_append]
  split
  · rename_i empty
    have none : after.dropWhile p = [] := by
      have gone : (after ++ []).dropWhile p = [] := List.dropWhile_append_of_pos blank'
      rwa [List.append_nil] at gone
    rw [none, List.isEmpty_iff.mp empty]
  · have blank : ∀ c ∈ after.reverse, p c = true :=
      fun c member => blank' c (List.mem_reverse.mp member)
    rw [List.reverse_append, List.dropWhile_append_of_pos blank]

theorem stripBy_append_of_blank (blank : p b = true) (s : List α) :
    stripBy p (s ++ [b]) = stripBy p s := by
  have last : ∀ c ∈ [b], p c = true := by simpa using blank
  have first : ∀ c ∈ ([] : List α), p c = true := nofun
  exact stripBy_surrounded first last s

theorem stripBy_eq_nil_iff : stripBy p s = [] ↔ ∀ c ∈ s, p c = true := by
  constructor
  · intro empty
    obtain ⟨before, after, parts, front, back⟩ := stripBy_parts p s
    rw [empty, List.nil_append] at parts
    intro c member
    rw [parts] at member
    rcases List.mem_append.mp member with first | last
    · exact front c first
    · exact back c last
  · intro blank
    have last : ∀ c ∈ ([] : List α), p c = true := nofun
    have whole := stripBy_surrounded blank last []
    simpa [stripBy] using whole

theorem stripBy_of_none (none : ∀ c ∈ s, p c = false) : stripBy p s = s := by
  have kept (u : List α) (none : ∀ c ∈ u, p c = false) : u.dropWhile p = u := by
    cases u with
    | nil => rfl
    | cons c rest => rw [List.dropWhile_cons_of_neg (by simp [none c List.mem_cons_self])]
  have turned : ∀ c ∈ s.reverse, p c = false := fun c member => none c (List.mem_reverse.mp member)
  rw [stripBy, kept s none, kept s.reverse turned, List.reverse_reverse]

/-- The parts of a text between the characters of a class, empty ones apart. -/
def runs (p : α → Bool) (s : List α) : List (List α) := (s.splitOnP p).filter (!·.isEmpty)

theorem runs_nil (p : α → Bool) : runs p [] = [] := rfl

theorem runs_append_cons (between : p b = true) (s t : List α) :
    runs p (s ++ b :: t) = runs p s ++ runs p t := by
  rw [runs, List.splitOnP_append_cons s t between, List.filter_append]
  rfl

theorem runs_cons_of_pos (between : p b = true) (t : List α) : runs p (b :: t) = runs p t :=
  runs_append_cons between [] t

theorem runs_of_none (none : ∀ c ∈ s, p c = false) (some : s ≠ []) : runs p s = [s] := by
  rw [runs, List.splitOnP_eq_singleton none]
  simp [some]

/-- A text without the separator is a single part. -/
theorem splitOn_of_not_mem {c : Char} {s : List Char} (none : c ∉ s) : s.splitOn c = [s] := by
  refine List.splitOnP_eq_singleton fun a member => ?_
  rw [beq_eq_false_iff_ne]
  rintro rfl
  exact none member

theorem runs_before (between : ∀ c ∈ before, p c = true) (s : List α) :
    runs p (before ++ s) = runs p s := by
  induction before with
  | nil => rfl
  | cons c rest ih =>
    rw [List.cons_append, runs_cons_of_pos (between c List.mem_cons_self)]
    exact ih fun d member => between d (List.mem_cons_of_mem c member)

theorem runs_after (between : ∀ c ∈ after, p c = true) (s : List α) :
    runs p (s ++ after) = runs p s := by
  cases after with
  | nil => rw [List.append_nil]
  | cons c rest =>
    have rest_none := runs_before (fun d member => between d (List.mem_cons_of_mem c member)) []
    rw [List.append_nil] at rest_none
    rw [runs_append_cons (between c List.mem_cons_self), rest_none, runs_nil, List.append_nil]

theorem runs_stripBy (p : α → Bool) (s : List α) : runs p (stripBy p s) = runs p s := by
  obtain ⟨before, after, parts, front, back⟩ := stripBy_parts p s
  conv => rhs; rw [parts, runs_before front, runs_after back]

/-- A text is all between, or it has a first run. -/
theorem runs_cases (p : α → Bool) (s : List α) :
    (∀ c ∈ s, p c = true) ∧ runs p s = [] ∨
    ∃ before first rest, s = before ++ (first ++ rest) ∧ (∀ c ∈ before, p c = true) ∧
      (∀ c ∈ first, p c = false) ∧ runs p s = first :: runs p rest := by
  have front : ∀ c ∈ s.takeWhile p, p c = true :=
    fun c member => List.all_eq_true.mp List.all_takeWhile c member
  have parts : s = s.takeWhile p ++ s.dropWhile p := List.takeWhile_append_dropWhile.symm
  cases behind : s.dropWhile p with
  | nil =>
    rw [behind, List.append_nil] at parts
    rw [← parts] at front
    have none := runs_before front []
    rw [List.append_nil] at none
    exact .inl ⟨front, none⟩
  | cons c u =>
    have opens : p c = false := by
      have head := List.head?_dropWhile_not p s
      simpa [behind] using head
    have word : ∀ d ∈ c :: u.takeWhile (!p ·), p d = false := by
      intro d member
      rcases List.mem_cons.mp member with rfl | later
      · exact opens
      · simpa using List.all_eq_true.mp List.all_takeWhile d later
    refine .inr ⟨s.takeWhile p, c :: u.takeWhile (!p ·), u.dropWhile (!p ·), ?_, front, word, ?_⟩
    · rw [List.cons_append, List.takeWhile_append_dropWhile, ← behind]
      exact parts
    · rw [parts, runs_before front, behind]
      have rest : c :: u = (c :: u.takeWhile (!p ·)) ++ u.dropWhile (!p ·) := by
        rw [List.cons_append, List.takeWhile_append_dropWhile]
      have one := runs_of_none word (List.cons_ne_nil _ _)
      rw [rest]
      cases ends : u.dropWhile (!p ·) with
      | nil => rw [List.append_nil, one, runs_nil]
      | cons b v =>
        have closes : p b = true := by
          have head := List.head?_dropWhile_not (!p ·) u
          simpa [ends] using head
        rw [runs_append_cons closes, runs_cons_of_pos closes, one]
        rfl

theorem runs_eq_nil_iff : runs p s = [] ↔ ∀ c ∈ s, p c = true := by
  constructor
  · intro empty
    rcases runs_cases p s with ⟨between, -⟩ | ⟨_, _, _, -, -, -, more⟩
    · exact between
    · rw [empty] at more
      contradiction
  · intro between
    have none := runs_before between []
    rwa [List.append_nil] at none

/-- A text with a single run is that run and nothing but what is stripped. -/
theorem stripBy_of_single_run (single : runs p s = [w]) : stripBy p s = w := by
  rcases runs_cases p s with ⟨-, empty⟩ | ⟨before, first, rest, parts, front, word, more⟩
  · rw [empty] at single
    contradiction
  · obtain ⟨rfl, last⟩ := List.cons.inj (more.symm.trans single)
    have back := runs_eq_nil_iff.mp last
    rw [parts, stripBy_surrounded front back, stripBy_of_none word]

end TacBench.Text
