import Mathlib.Data.List.DropRight
import TacBench.Editor.CurrentWord

/-! The borders of the word at the cursor. The text falls into four parts: what is in front of the
word, the word left and right of the cursor, and what follows it. The separators are in the outer
parts. At the end of the word as many characters may be left out as there are brackets behind the
cursor; the brackets stand in the word, so that its end does not come before the cursor. -/
namespace TacBench.Editor.CurrentWord

variable {s w front left right back : List Char} {i : Int} {k : Nat}

def isSeparator (c : Char) : Bool := separators.contains c

theorem isSeparator_iff {c : Char} : isSeparator c = true ↔ c ∈ separators := List.contains_iff_mem

def isWordPart (c : Char) : Bool := !isSeparator c

theorem isWordPart_iff {c : Char} : isWordPart c = true ↔ c ∉ separators := by
  rw [isWordPart, Bool.not_eq_true', ← Bool.not_eq_true, isSeparator_iff]

/-- The positions of the separators in a text whose first character has position `k`. -/
def positionsFrom (k : Nat) (s : List Char) : List Int :=
  ((s.zipIdx k).filter fun e => isSeparator e.1).map fun e => (e.2 : Int)

theorem separatorPositions_eq (s : List Char) : separatorPositions s = positionsFrom 0 s := rfl

theorem positionsFrom_nil (k : Nat) : positionsFrom k [] = [] := rfl

theorem positionsFrom_append (k : Nat) (s w : List Char) :
    positionsFrom k (s ++ w) = positionsFrom k s ++ positionsFrom (k + s.length) w := by
  simp only [positionsFrom, List.zipIdx_append, List.filter_append, List.map_append]

theorem positionsFrom_cons (k : Nat) (c : Char) (s : List Char) :
    positionsFrom k (c :: s) = (if isSeparator c then [(k : Int)] else []) ++
      positionsFrom (k + 1) s := by
  simp only [positionsFrom, List.zipIdx_cons, List.filter_cons]
  split <;> rfl

theorem positionsFrom_eq_nil (unbroken : ∀ c ∈ w, c ∉ separators) (k : Nat) :
    positionsFrom k w = [] := by
  refine List.map_eq_nil_iff.mpr (List.filter_eq_nil_iff.mpr fun e member => ?_)
  rw [isSeparator_iff]
  exact unbroken e.1 (List.fst_mem_of_mem_zipIdx member)

theorem bounds_of_mem_positionsFrom (member : i ∈ positionsFrom k s) :
    k ≤ i ∧ i < k + s.length := by
  obtain ⟨e, inside, rfl⟩ := List.mem_map.mp member
  have low := List.le_snd_of_mem_zipIdx (List.mem_filter.mp inside).1
  have high := List.snd_lt_add_of_mem_zipIdx (List.mem_filter.mp inside).1
  omega

theorem position_natCast (s : List Char) (n : Nat) : position s n = n := by
  rw [position, if_neg (by omega), Int.toNat_natCast]

theorem takeWhile_append_of_head? {p : Char → Bool} (other : ∀ c ∈ back.head?, p c = false) :
    (w ++ back).takeWhile p = w.takeWhile p := by
  induction w with
  | nil =>
    cases back with
    | nil => rfl
    | cons c rest => simp [other c rfl]
  | cons c w ih =>
    rw [List.cons_append, List.takeWhile_cons, List.takeWhile_cons, ih]

/-- The parts of a text around a cursor that stands between `left` and `right`. -/
structure Parts (front left right back : List Char) : Prop where
  left : ∀ c ∈ left, c ∉ separators
  right : ∀ c ∈ right, c ∉ separators
  front : ∀ c ∈ front.getLast?, c ∈ separators
  back : ∀ c ∈ back.head?, c ∈ separators

/-- Every text has such parts around each of its places. -/
theorem exists_parts (s : List Char) (within : k ≤ s.length) :
    ∃ front left right back, s = front ++ (left ++ (right ++ back)) ∧ (front ++ left).length = k ∧
      Parts front left right back := by
  have outside {c : Char} (other : ¬ isWordPart c = true) : c ∈ separators :=
    Decidable.not_not.mp (mt isWordPart_iff.mpr other)
  refine ⟨(s.take k).rdropWhile isWordPart, (s.take k).rtakeWhile isWordPart,
    (s.drop k).takeWhile isWordPart, (s.drop k).dropWhile isWordPart, ?_, ?_, ?_, ?_, ?_, ?_⟩
  · rw [List.takeWhile_append_dropWhile, ← List.append_assoc, List.rdropWhile_append_rtakeWhile,
      List.take_append_drop]
  · rw [List.rdropWhile_append_rtakeWhile, List.length_take, Nat.min_eq_left within]
  · exact fun c member => isWordPart_iff.mp (List.mem_rtakeWhile_imp member)
  · exact fun c member => isWordPart_iff.mp (List.mem_takeWhile_imp member)
  · intro c last
    obtain ⟨some, rfl⟩ := List.mem_getLast?_eq_getLast last
    exact outside (List.rdropWhile_last_not _ _ some)
  · intro c first
    have head := List.head?_dropWhile_not isWordPart (s.drop k)
    rw [Option.mem_def.mp first] at head
    exact outside (by simp [head])

namespace Parts

theorem positions (parts : Parts front left right back) :
    separatorPositions (front ++ (left ++ (right ++ back))) =
      positionsFrom 0 front ++ positionsFrom (front ++ left ++ right).length back := by
  simp only [separatorPositions_eq, positionsFrom_append, positionsFrom_eq_nil parts.left,
    positionsFrom_eq_nil parts.right, List.nil_append, Nat.zero_add, List.length_append,
    Nat.add_assoc]

/-- The last separator before the cursor ends the front part. -/
theorem start (parts : Parts front left right back) :
    ((lastBefore (front ++ left).length
      (separatorPositions (front ++ (left ++ (right ++ back))))).map
      (· + 1)).getD 0 = (front.length : Int) := by
  have before : (positionsFrom 0 front).filter (· < ((front ++ left).length : Int)) =
      positionsFrom 0 front := by
    refine List.filter_eq_self.mpr fun i member => ?_
    have bounds := bounds_of_mem_positionsFrom member
    rw [decide_eq_true_eq, List.length_append]
    omega
  have behind : (positionsFrom (front ++ left ++ right).length back).filter
      (· < ((front ++ left).length : Int)) = [] := by
    refine List.filter_eq_nil_iff.mpr fun i member => ?_
    have bounds := bounds_of_mem_positionsFrom member
    simp only [List.length_append, decide_eq_true_eq] at bounds ⊢
    omega
  rw [lastBefore, parts.positions, List.filter_append, before, behind, List.append_nil]
  cases front using List.reverseRecOn with
  | nil => rfl
  | append_singleton init c =>
    have last : isSeparator c = true := isSeparator_iff.mpr (parts.front c (by simp))
    rw [positionsFrom_append, positionsFrom_cons, if_pos last, positionsFrom_nil]
    simp

/-- The first separator that is not before the cursor begins the back part. -/
theorem stop (parts : Parts front left right back) :
    (firstFrom (front ++ left).length
      (separatorPositions (front ++ (left ++ (right ++ back))))).getD
      (front ++ (left ++ (right ++ back))).length = (front ++ left ++ right).length := by
  have before : (positionsFrom 0 front).find? (((front ++ left).length : Int) ≤ ·) = none := by
    refine List.find?_eq_none.mpr fun i member => ?_
    have bounds := bounds_of_mem_positionsFrom member
    rw [decide_eq_true_eq, List.length_append]
    omega
  rw [firstFrom, parts.positions, List.find?_append, before, Option.none_or]
  cases back with
  | nil => simp [positionsFrom_nil]
  | cons c rest =>
    have first : isSeparator c = true := isSeparator_iff.mpr (parts.back c rfl)
    have reached : ((front ++ left).length : Int) ≤ (front ++ left ++ right).length := by
      simp only [List.length_append]
      omega
    rw [positionsFrom_cons, if_pos first, List.singleton_append, List.find?_cons,
      decide_eq_true reached]
    rfl

/-- The brackets behind the cursor stand in the word. -/
theorem brackets (parts : Parts front left right back) :
    (right ++ back).takeWhile (· = ')') = right.takeWhile (· = ')') := by
  refine takeWhile_append_of_head? fun c first => decide_eq_false ?_
  rintro rfl
  exact absurd (parts.back ')' first) (by decide)

/-- The word begins behind the front part. At most as many characters as there are brackets behind
the cursor are left out at its end. -/
theorem borders (parts : Parts front left right back) (some : front ++ left ≠ []) :
    ∃ kept lost, right = kept ++ lost ∧ lost.length ≤ (right.takeWhile (· = ')')).length ∧
      borders? (front ++ (left ++ (right ++ back))) (front ++ left).length =
        .some (front.length, (front ++ left ++ kept).length) := by
  have behind : ((front ++ left).length : Int) ≠ 0 := by
    have := List.length_pos_iff.mpr some
    omega
  have rest : (front ++ (left ++ (right ++ back))).drop (front ++ left).length = right ++ back := by
    rw [← List.append_assoc, List.drop_left]
  unfold borders?
  rw [if_neg behind]
  dsimp only
  rw [parts.start, parts.stop, position_natCast, rest, parts.brackets]
  split
  · exact ⟨right, [], (List.append_nil right).symm, Nat.zero_le _, rfl⟩
  · have few : (right.takeWhile (· = ')')).length ≤ right.length :=
      (List.takeWhile_sublist _).length_le
    refine ⟨right.take (right.length - (right.takeWhile (· = ')')).length), right.drop _,
      (List.take_append_drop _ right).symm, ?_, ?_⟩
    · rw [List.length_drop]
      omega
    · simp only [List.length_append, List.length_take, Option.some.injEq, Prod.mk.injEq, true_and]
      omega

end Parts

/-- The borders of the word at a cursor behind the beginning of a text lie around the cursor and
within the text. There is no separator between them, and the first border is at the beginning of the
text or directly behind a separator. What is missing behind the second one up to the next separator
or the end of the text is not longer than the run of brackets directly behind the cursor. -/
theorem borders_within_word (s : List Char) (cursor : Int) (behind : 0 < cursor)
    (inside : cursor ≤ s.length) :
    ∃ start stop, borders? s cursor = some (start, stop) ∧
      (0 ≤ start ∧ start ≤ cursor ∧ cursor ≤ stop ∧ stop ≤ s.length) ∧
      (∀ c ∈ slice s start stop, c ∉ separators) ∧
      (start = 0 ∨ ∃ c ∈ separators, s[(start - 1).toNat]? = some c) ∧
      ((s.drop stop.toNat).takeWhile (· ∉ separators)).length ≤
        ((s.drop cursor.toNat).takeWhile (· = ')')).length := by
  obtain ⟨n, rfl⟩ := Int.eq_ofNat_of_zero_le (Int.le_of_lt behind)
  obtain ⟨front, left, right, back, rfl, rfl, parts⟩ := exists_parts s (Int.ofNat_le.mp inside)
  obtain ⟨kept, lost, rfl, few, found⟩ :=
    parts.borders (List.ne_nil_of_length_pos (Int.ofNat_lt.mp behind))
  have regrouped : front ++ (left ++ (kept ++ lost ++ back)) = front ++ left ++ kept ++
      (lost ++ back) := by simp
  refine ⟨_, _, found, ?_, ?_, ?_, ?_⟩
  · simp only [List.length_append]
    omega
  · have word : slice (front ++ (left ++ (kept ++ lost ++ back))) front.length
        (front ++ left ++ kept).length =
        left ++ kept := by
      rw [slice, position_natCast, position_natCast, regrouped, List.take_left, List.append_assoc,
        List.drop_left]
    rw [word]
    intro c member
    rcases List.mem_append.mp member with before | after
    · exact parts.left c before
    · exact parts.right c (List.mem_append_left lost after)
  · cases front using List.reverseRecOn with
    | nil => exact .inl rfl
    | append_singleton init c => exact .inr ⟨c, parts.front c (by simp), by simp⟩
  · have missing : ((front ++ (left ++ (kept ++ lost ++ back))).drop
      (front ++ left ++ kept).length).takeWhile
        (· ∉ separators) = lost := by
      rw [regrouped, List.drop_left,
        takeWhile_append_of_head? fun c first =>
          decide_eq_false (not_not_intro (parts.back c first))]
      exact List.takeWhile_eq_self_iff.mpr fun c member =>
        decide_eq_true (parts.right c (List.mem_append_right kept member))
    have behind : (front ++ (left ++ (kept ++ lost ++ back))).drop (front ++ left).length = kept ++
        lost ++ back := by
      rw [← List.append_assoc, List.drop_left]
    rw [Int.toNat_natCast, Int.toNat_natCast, missing, behind, parts.brackets]
    exact few

/-- A word that ends in two brackets. -/
def bracketed : List Char := "a (foo)) b".toList

/-- With the cursor in front of the two brackets, both are left out. -/
theorem bracketed_borders :
    (0 < (6 : Int) ∧ (6 : Int) ≤ bracketed.length) ∧ borders? bracketed 6 = some (2, 6) ∧
      (∀ c ∈ slice bracketed 2 6, c ∉ separators) ∧ (∃ c ∈ separators, bracketed[1]? = some c) ∧
      ((bracketed.drop 6).takeWhile (· ∉ separators)).length ≤
        ((bracketed.drop 6).takeWhile (· = ')')).length := by
  have behind : 0 < (6 : Int) := by decide
  have inside : (6 : Int) ≤ bracketed.length := by decide
  have values : borders? bracketed 6 = some (2, 6) := by decide
  obtain ⟨start, stop, found, -, unbroken, first, missing⟩ :=
    borders_within_word bracketed 6 behind inside
  obtain ⟨rfl, rfl⟩ : 2 = start ∧ 6 = stop := by simpa [values] using found
  exact ⟨⟨behind, inside⟩, values, unbroken, first.resolve_left (by decide), missing⟩

end TacBench.Editor.CurrentWord
