import TacBench.Proofs.SourceLines

/-! Texts that may be put before a code and change nothing about it: lines with nothing but a
comment, whichever breaks end them. -/
namespace TacBench

namespace Text

variable {α : Type} {seen : α → Char}

theorem brokenLines_ne_nil {s : List α} (some : s ≠ []) : brokenLines seen s ≠ [] := by
  fun_cases brokenLines seen s with
  | case1 => contradiction
  | case2 => simp
  | case3 => simp
  | case4 => simp
  | case5 => simp
  | case6 c d r =>
    cases brokenLines seen (d :: r) <;> simp [putFirst]

/-- Breaks stand behind lines, never inside. -/
theorem brokenLines_parts (s : List α) : ∀ l ∈ brokenLines seen s,
    (∀ c ∈ l.1, isLineBreak (seen c) = false) ∧ ∀ c ∈ l.2, isLineBreak (seen c) = true := by
  fun_induction brokenLines seen s with
  | case1 => simp
  | case2 c ends => simpa using ends
  | case3 c inside => simpa using inside
  | case4 c d r pair ih =>
    intro l member
    rcases List.mem_cons.mp member with rfl | later
    · have first : isLineBreak (seen c) = true := by rw [pair.1]; decide
      have second : isLineBreak (seen d) = true := by rw [pair.2]; decide
      simp [first, second]
    · exact ih l later
  | case5 c d r _ ends ih =>
    intro l member
    rcases List.mem_cons.mp member with rfl | later
    · simpa using ends
    · exact ih l later
  | case6 c d r _ inside ih =>
    have inside : isLineBreak (seen c) = false := by simpa using inside
    intro l member
    cases behind : brokenLines seen (d :: r) with
    | nil => exact absurd behind (brokenLines_ne_nil (List.cons_ne_nil d r))
    | cons first rest =>
      rw [behind] at member ih
      rcases List.mem_cons.mp member with rfl | later
      · have parts := ih first List.mem_cons_self
        exact ⟨by simpa [inside] using parts.1, parts.2⟩
      · exact ih l (List.mem_cons_of_mem _ later)

theorem brokenLines_cons_of_inside {c : α} (inside : isLineBreak (seen c) = false) (s : List α) :
    brokenLines seen (c :: s) = putFirst c (brokenLines seen s) := by
  have other : seen c ≠ '\r' := by
    intro same
    rw [same] at inside
    contradiction
  cases s with
  | nil => simp [brokenLines, inside, putFirst]
  | cons d r => simp [brokenLines, inside, other]

theorem brokenLines_map (s : List α) :
    brokenLines id (s.map seen) = (brokenLines seen s).map fun l =>
    (l.1.map seen, l.2.map seen) := by
  fun_induction brokenLines seen s with
  | case1 => rfl
  | case2 c ends => simp [brokenLines, ends]
  | case3 c inside => simp [brokenLines, inside]
  | case4 c d r pair ih => simp [brokenLines, pair, ih]
  | case5 c d r single ends ih => simp_all [brokenLines]
  | case6 c d r _ inside ih =>
    have inside : isLineBreak (id (seen c)) = false := by simpa using inside
    rw [List.map_cons, brokenLines_cons_of_inside inside, ih]
    cases brokenLines seen (d :: r) <;> rfl

theorem lines_seen (s : Text) : lines s.seen = (pointLines s).map Text.seen := by
  unfold lines pointLines Text.seen
  rw [brokenLines_map, List.map_map, List.map_map]
  rfl

/-- Lines with something before the first of them. -/
def leading (w : List Char) : List (List Char) → List (List Char)
  | [] => [w]
  | l :: ls => (w ++ l) :: ls

theorem filter_leading_nil (ls : List (List Char)) :
    (leading [] ls).filter (!·.isEmpty) = ls.filter (!·.isEmpty) := by
  cases ls <;> simp [leading]

theorem runs_unbroken {w : List Char} (unbroken : ∀ c ∈ w, isLineBreak c = false) :
    runs isLineBreak w = [w].filter (!·.isEmpty) := by
  cases w with
  | nil => rfl
  | cons c w =>
    rw [runs_of_none unbroken (List.cons_ne_nil c w)]
    rfl

theorem unbroken_concat {w : List Char} {c : Char} (unbroken : ∀ c ∈ w, isLineBreak c = false)
    (inside : ¬isLineBreak c = true) : ∀ d ∈ w ++ [c], isLineBreak d = false := by
  intro d member
  rcases List.mem_append.mp member with first | last
  · exact unbroken d first
  · rw [List.mem_singleton.mp last]
    exact eq_false_of_ne_true inside

theorem runs_leading_break {w s : List Char} {c : Char} (unbroken : ∀ c ∈ w, isLineBreak c = false)
    (ends : isLineBreak c = true) {ls : List (List Char)}
    (rest : runs isLineBreak s = (leading [] ls).filter (!·.isEmpty)) :
    runs isLineBreak (w ++ c :: s) = (leading w ([] :: ls)).filter (!·.isEmpty) := by
  rw [runs_append_cons ends, runs_unbroken unbroken, rest, filter_leading_nil, ← List.filter_append]
  simp [leading]

-- What stands before a text joins its first line, so that the lines of the whole are known without
-- asking where that line ends.
theorem runs_leading (s : List Char) {w : List Char} (unbroken : ∀ c ∈ w, isLineBreak c = false) :
    runs isLineBreak (w ++ s) = (leading w (lines s)).filter (!·.isEmpty) := by
  unfold lines
  fun_induction brokenLines id s generalizing w with
  | case1 => simpa [leading] using runs_unbroken unbroken
  | case2 c ends => exact runs_leading_break unbroken ends rfl
  | case3 c inside =>
    have whole : ∀ d ∈ w ++ [c], isLineBreak d = false := unbroken_concat unbroken inside
    rw [runs_unbroken whole]
    rfl
  | case4 c d r pair ih =>
    have first : isLineBreak c = true := by
      rw [show c = '\r' from pair.1]
      decide
    have second : isLineBreak d = true := by
      rw [show d = '\n' from pair.2]
      decide
    refine runs_leading_break unbroken first ?_
    rw [runs_cons_of_pos second]
    exact ih (List.forall_mem_nil _)
  | case5 c d r _ ends ih => exact runs_leading_break unbroken ends (ih (List.forall_mem_nil _))
  | case6 c d r _ inside ih =>
    have whole : ∀ d ∈ w ++ [c], isLineBreak d = false := unbroken_concat unbroken inside
    have longer := ih whole
    rw [List.append_assoc] at longer
    refine longer.trans ?_
    cases behind : brokenLines id (d :: r) with
    | nil => exact absurd behind (brokenLines_ne_nil (List.cons_ne_nil d r))
    | cons first rest => simp [putFirst, leading]

theorem lines_filter (s : List Char) : (lines s).filter (!·.isEmpty) = runs isLineBreak s := by
  have whole := runs_leading s (List.forall_mem_nil _)
  rw [filter_leading_nil] at whole
  exact whole.symm

/-- No line ends in the text. -/
def Unbroken (s : Text) : Prop := ∀ c ∈ s, isLineBreak c.seen = false

/-- Lines of the text end with a line feed and nothing else. -/
def FeedsOnly (s : Text) : Prop := ∀ c ∈ s, isLineBreak c.seen = true → c = .char '\n'

instance (s : Text) : Decidable (Unbroken s) := inferInstanceAs (Decidable (∀ c ∈ s, _ = _))

instance (s : Text) : Decidable (FeedsOnly s) := inferInstanceAs (Decidable (∀ c ∈ s, _ → _))

variable {s t : Text}

theorem unbroken_nil : Unbroken [] := List.forall_mem_nil _

theorem Unbroken.append (first : Unbroken s) (second : Unbroken t) : Unbroken (s ++ t) := by
  intro c member
  rcases List.mem_append.mp member with left | right
  · exact first c left
  · exact second c right

theorem Unbroken.chars (unbroken : Unbroken s) : ∀ c ∈ s.seen, isLineBreak c = false := by
  intro c member
  obtain ⟨d, inside, rfl⟩ := List.mem_map.mp member
  exact unbroken d inside

theorem breaks_seen (ends : ∀ c ∈ s, isLineBreak c.seen = true) :
    ∀ c ∈ s.seen, isLineBreak c = true := by
  intro c member
  obtain ⟨d, inside, rfl⟩ := List.mem_map.mp member
  exact ends d inside

theorem unbroken_replicate (n : Nat) {c : CodePoint} (inside : isLineBreak c.seen = false) :
    Unbroken (List.replicate n c) := by
  intro d member
  rw [List.eq_of_mem_replicate member]
  exact inside

theorem unbroken_ofString {u : String} (inside : ∀ c ∈ u.toList, isLineBreak c = false) :
    Unbroken u := by
  intro c member
  obtain ⟨d, among, rfl⟩ := List.mem_map.mp member
  exact inside d among

theorem ofString_append (u v : String) :
    Text.ofString (u ++ v) = Text.ofString u ++ Text.ofString v := by
  simp [Text.ofString, Text.ofChars]

theorem isLineBreak_of_isDigit {c : Char} (digit : c.isDigit = true) : isLineBreak c = false := by
  have bounds : 48 ≤ c.toNat ∧ c.toNat ≤ 57 := by
    simpa [Char.isDigit, UInt32.le_iff_toNat_le] using digit
  simp only [isLineBreak, Bool.or_eq_false_iff, Bool.and_eq_false_iff, decide_eq_false_iff_not,
    beq_eq_false_iff_ne]
  omega

theorem unbroken_nat (n : Nat) : Unbroken (toString n) := by
  refine unbroken_ofString fun c member => ?_
  rw [Nat.toString_eq_repr, Nat.toList_repr] at member
  exact isLineBreak_of_isDigit (Nat.isDigit_of_mem_toDigits (by decide) (by decide) member)

theorem unbroken_int (n : Int) : Unbroken (toString n) := by
  cases n with
  | ofNat n => exact unbroken_nat n
  | negSucc n =>
    have shown : toString (Int.negSucc n) = "-" ++ toString (n + 1) := rfl
    rw [shown, ofString_append]
    exact Unbroken.append (by decide) (unbroken_nat _)

end Text

namespace Program

open Text

variable {s t w : List Char} {b : Char}

theorem tokenLines_eq_runs (s : List Char) :
    tokenLines s = ((runs isLineBreak s).map tokens).filter (!·.isEmpty) := by
  rw [← lines_filter, tokenLines]
  induction lines s with
  | nil => rfl
  | cons l ls ih =>
    cases l with
    | nil =>
      have none : tokens [] = [] := rfl
      simpa [none] using ih
    | cons c l => simp only [List.map_cons, List.filter_cons, ih, List.isEmpty_cons,
        Bool.not_false, if_true]

theorem tokenLines_append_break (ends : isLineBreak b = true) (s t : List Char) :
    tokenLines (s ++ b :: t) = tokenLines s ++ tokenLines t := by
  simp only [tokenLines_eq_runs, runs_append_cons ends, List.map_append, List.filter_append]

theorem tokenLines_append_breaks (ends : ∀ c ∈ t, isLineBreak c = true) (s : List Char) :
    tokenLines (s ++ t) = tokenLines s := by
  simp only [tokenLines_eq_runs, runs_after ends]

theorem tokenLines_unbroken (unbroken : ∀ c ∈ w, isLineBreak c = false) :
    tokenLines w = [tokens w].filter (!·.isEmpty) := by
  rw [tokenLines_eq_runs, runs_unbroken unbroken]
  cases w with
  | nil => rfl
  | cons c w => rfl

/-- Blanks and a comment behind a line do not change its words. -/
theorem tokens_commented {blanks : List Char} (blank : ∀ c ∈ blanks, isBlank c = true)
    (s t : List Char) :
    tokens (s ++ (blanks ++ '#' :: t)) = tokens s := by
  have clear : ∀ c ∈ blanks, (c != '#') = true := fun c member => isBlank_ne_hash (blank c member)
  unfold tokens
  rw [List.takeWhile_append]
  split
  · rename_i whole
    have all : s.takeWhile (· != '#') = s := (List.takeWhile_prefix _).eq_of_length whole
    rw [List.takeWhile_append_of_pos clear, all]
    have ends : ('#' :: t).takeWhile (· != '#') = [] := rfl
    rw [ends, List.append_nil]
    exact runs_after blank s
  · rfl

theorem tokens_comment (t : List Char) : tokens ('#' :: t) = [] := rfl

/-- A text before a code that changes nothing about it. -/
def Skipped (s : Text) : Prop := ∀ rest, tokenLines (s.seen ++ rest) = tokenLines rest

/-- A text that is skipped in a comment of its own. -/
def Hidden (s : Text) : Prop := Skipped ("# " ++ s ++ "\n")

theorem seen_append (s t : Text) : (s ++ t).seen = s.seen ++ t.seen := List.map_append

theorem Skipped.nil : Skipped [] := fun _ => rfl

theorem Skipped.append {s t : Text} (first : Skipped s) (second : Skipped t) :
    Skipped (s ++ t) := by
  intro rest
  rw [seen_append, List.append_assoc, first, second]

theorem Skipped.flatMap {α : Type} {f : α → Text} {xs : List α} (each : ∀ x ∈ xs, Skipped (f x)) :
    Skipped (xs.flatMap f) := by
  induction xs with
  | nil => exact .nil
  | cons x xs ih =>
    rw [List.flatMap_cons]
    exact (each x List.mem_cons_self).append (ih fun y member =>
      each y (List.mem_cons_of_mem x member))

theorem skipped_of_breaks {s : Text} (ends : ∀ c ∈ s, isLineBreak c.seen = true) : Skipped s := by
  intro rest
  simp only [tokenLines_eq_runs, runs_before (breaks_seen ends)]

theorem skipped_feed : Skipped (Text.ofString "\n") := skipped_of_breaks (by decide)

/-- Whole lines without a word are skipped. -/
theorem skipped_of_tokenLines {s : Text} (none : tokenLines s.seen = [])
    (ends : s.getLast? = some (.char '\n')) : Skipped s := by
  have feed : isLineBreak '\n' = true := by decide
  obtain ⟨front, rfl⟩ := List.getLast?_eq_some_iff.mp ends
  have closed : Text.seen (front ++ [.char '\n']) = Text.seen front ++ ['\n'] := seen_append front _
  rw [closed, tokenLines_append_break feed, List.append_eq_nil_iff] at none
  intro rest
  rw [closed, List.append_assoc, List.singleton_append, tokenLines_append_break feed, none.1,
    List.nil_append]

/-- The break that ends a text may open what follows. -/
theorem Skipped.before {s t : Text} (first : Skipped (s ++ Text.ofString "\n")) (second : Skipped t)
    (opens : t.head? = some (.char '\n')) : Skipped (s ++ t) := by
  have feed : isLineBreak '\n' = true := by decide
  obtain ⟨later, rfl⟩ : ∃ later : Text, t = .char '\n' :: later := by
    cases t with
    | nil => contradiction
    | cons c later => exact ⟨later, by rw [Option.some.inj opens]⟩
  intro rest
  have whole : Text.seen (s ++ .char '\n' :: later) ++ rest =
      (s ++ Text.ofString "\n").seen ++ (later.seen ++ rest) := by
    simp [Text.seen, Text.ofString, Text.ofChars, CodePoint.seen]
  have opened := second rest
  have kept : tokenLines ('\n' :: (later.seen ++ rest)) = tokenLines (later.seen ++ rest) := by
    simp only [tokenLines_eq_runs, runs_cons_of_pos feed]
  rw [whole, first]
  exact kept.symm.trans opened

theorem hidden_broken {w stop : Text} (unbroken : Unbroken w)
    (ends : ∀ c ∈ stop, isLineBreak c.seen = true) : Hidden (w ++ stop) := by
  have feed : ∀ c ∈ Text.ofString "\n", isLineBreak c.seen = true := by decide
  have breaks : ∀ c ∈ (stop ++ Text.ofString "\n").seen, isLineBreak c = true := by
    refine breaks_seen fun c member => ?_
    rcases List.mem_append.mp member with first | last
    · exact ends c first
    · exact feed c last
  have whole : Unbroken (Text.ofString "# " ++ w) := Unbroken.append (by decide) unbroken
  have comment : (Text.ofString "# " ++ w).seen = '#' :: (' ' :: w.seen) := rfl
  have parts : Text.ofString "# " ++ (w ++ stop) ++ Text.ofString "\n" =
      (Text.ofString "# " ++ w) ++ (stop ++ Text.ofString "\n") := by simp only [List.append_assoc]
  have last : (Text.ofString "# " ++ (w ++ stop) ++ Text.ofString "\n").getLast? =
      some (.char '\n') :=
    List.getLast?_append_of_ne_nil _ (by decide)
  refine skipped_of_tokenLines ?_ last
  rw [parts, seen_append, tokenLines_append_breaks breaks, tokenLines_unbroken whole.chars, comment,
    tokens_comment]
  rfl

theorem hidden_of_unbroken {w : Text} (unbroken : Unbroken w) : Hidden w := by
  have whole : Hidden (w ++ []) := hidden_broken unbroken (List.forall_mem_nil _)
  rwa [List.append_nil] at whole

end Program
end TacBench
