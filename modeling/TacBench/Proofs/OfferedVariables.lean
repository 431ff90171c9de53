import TacBench.Editor.Completion
import TacBench.Proofs.Comments
import TacBench.Proofs.OperandForms
import TacBench.Proofs.Selection

/-! The variables that are offered for completion. They are looked for in the bare text of the code,
where every variable of the program stands between blanks or before a comment, so that the search
comes upon it. A name may however have letters and digits of any script, and the search ends it at
the first one that is not among those it knows: such a variable is offered cut off. -/
namespace TacBench

namespace Text

variable {p q : Char → Bool} {s u w : List Char}

/-- The word stands in the text with nothing beside it, or characters of a class. -/
def StandsIn (p : Char → Bool) (w s : List Char) : Prop :=
  ∃ before after, s = before ++ (w ++ after) ∧ (∀ c ∈ before.getLast?, p c = true) ∧
    ∀ c ∈ after.head?, p c = true

theorem StandsIn.imp (stands : StandsIn p w s) (wider : ∀ c, p c = true → q c = true) :
    StandsIn q w s := by
  obtain ⟨before, after, parts, front, back⟩ := stands
  exact ⟨before, after, parts, fun c last => wider c (front c last),
    fun c first => wider c (back c first)⟩

theorem StandsIn.trans (inner : StandsIn p w u) (outer : StandsIn p u s) : StandsIn p w s := by
  obtain ⟨before, after, rfl, front, back⟩ := inner
  obtain ⟨before', after', rfl, front', back'⟩ := outer
  refine ⟨before' ++ before, after ++ after', by simp, fun c last => ?_, fun c first => ?_⟩
  · cases before using List.reverseRecOn with
    | nil => exact front' c (by simpa using last)
    | append_singleton init d => exact front c (by simpa using last)
  · cases after with
    | nil => exact back' c (by simpa using first)
    | cons d rest => exact back c (by simpa using first)

theorem StandsIn.isInfix (stands : StandsIn p w s) : w <:+: s := by
  obtain ⟨before, after, rfl, -, -⟩ := stands
  exact ⟨before, after, by simp⟩

theorem standsIn_of_mem_runs (member : w ∈ runs p s) : StandsIn p w s ∧ ∀ c ∈ w, p c = false := by
  induction length : s.length using Nat.strong_induction_on generalizing s with
  | _ n ih =>
    subst length
    -- The first character of the class ends the first run.
    by_cases clear : ∀ c ∈ s, p c = false
    · by_cases empty : s = []
      · rw [empty, runs_nil] at member
        cases member
      · rw [runs_of_none clear empty, List.mem_singleton] at member
        subst member
        exact ⟨⟨[], [], by simp, by simp, by simp⟩, clear⟩
    · push Not at clear
      obtain ⟨b, inside, between⟩ := clear
      have between : p b = true := by simpa using between
      obtain ⟨front, back, rfl⟩ := List.append_of_mem inside
      rw [runs_append_cons between, List.mem_append] at member
      rcases member with first | later
      · obtain ⟨stands, word⟩ := ih front.length (by simp) first rfl
        exact ⟨stands.trans ⟨[], b :: back, rfl, by simp, by simpa using between⟩, word⟩
      · obtain ⟨stands, word⟩ := ih back.length (by simp; omega) later rfl
        exact ⟨stands.trans ⟨front ++ [b], [], by simp, by simpa using between, by simp⟩, word⟩

end Text

theorem Instruction.source_of_parse {line : String} {index : Int} {i : Instruction}
    (parsed : parse line index = .ok i) : i.source = line := by
  unfold parse at parsed
  split at parsed
  · cases parsed
  · split at parsed
    · cases parsed
    · split at parsed
      · cases parsed
      · split at parsed <;> cases parsed
        rfl

namespace Program

open Text Code

variable {code : String} {p : Program} {i : Instruction} {o : Operand}

/-- Behind a word of the code stands a blank or the mark of a comment. -/
def isWordEnd (c : Char) : Bool := isBlank c || c == '#'

theorem isBlank_of_isLineBreak {c : Char} (ends : isLineBreak c = true) : isBlank c = true := by
  simp only [isLineBreak, Bool.or_eq_true, Bool.and_eq_true, decide_eq_true_eq, beq_iff_eq] at ends
  simp only [isBlank, Bool.or_eq_true, Bool.and_eq_true, decide_eq_true_eq, beq_iff_eq]
  omega

theorem standsIn_of_tokens {raw w : List Char} (line : raw ∈ lines code.toList)
    (word : w ∈ tokens raw) :
    StandsIn isWordEnd w code.toList := by
  have blank (c : Char) (blank : isBlank c = true) : isWordEnd c =
      true := by simp [isWordEnd, blank]
  have inLine : StandsIn isWordEnd (raw.takeWhile (· != '#')) raw := by
    refine ⟨[], raw.dropWhile (· != '#'), List.takeWhile_append_dropWhile.symm,
      by simp, fun c first => ?_⟩
    have head := List.head?_dropWhile_not (· != '#') raw
    rw [Option.mem_def.mp first] at head
    have mark : c = '#' := by simpa using head
    simp [isWordEnd, mark]
  have filled : raw ≠ [] := by
    rintro rfl
    cases word
  have inCode : raw ∈ runs isLineBreak code.toList := by
    rw [← lines_filter, List.mem_filter]
    exact ⟨line, by simpa using filled⟩
  have broken := (standsIn_of_mem_runs inCode).1.imp fun c ends =>
    blank c (isBlank_of_isLineBreak ends)
  exact ((standsIn_of_mem_runs word).1.imp blank).trans (inLine.trans broken)

/-- An instruction stands on one of the lines, behind the header. -/
theorem loadLines_lines {started : Bool} {numbered : List (List Char × Nat)} {is : List Instruction}
    (loaded : loadLines started numbered = .ok is) (member : i ∈ is) :
    (∃ e ∈ numbered, i.source = String.ofList (significant e.1)) ∧
      (started = true ∨ ∃ e ∈ numbered, tokens e.1 = [header.toList]) := by
  induction numbered generalizing started is with
  | nil =>
    cases loaded
    cases member
  | cons entry rest ih =>
    obtain ⟨raw, k⟩ := entry
    have later {started' : Bool} {is' : List Instruction}
      (loaded : loadLines started' rest = .ok is')
      (member : i ∈ is') : ∃ e ∈ (raw, k) :: rest, i.source =
          String.ofList (significant e.1) := by
      obtain ⟨⟨e, inside, source⟩, -⟩ := ih loaded member
      exact ⟨e, List.mem_cons_of_mem _ inside, source⟩
    by_cases empty : tokens raw = []
    · rw [loadLines_skip empty] at loaded
      refine ⟨later loaded member, (ih loaded member).2.imp_right ?_⟩
      rintro ⟨e, inside, single⟩
      exact ⟨e, List.mem_cons_of_mem _ inside, single⟩
    · cases started with
      | true =>
        refine ⟨?_, .inl rfl⟩
        rw [loadLines_instruction empty] at loaded
        obtain ⟨first, parsed, loaded⟩ := bind_eq_ok loaded
        obtain ⟨others, behind, loaded⟩ := bind_eq_ok loaded
        cases loaded
        rcases List.mem_cons.mp member with rfl | among
        · exact ⟨(raw, k), List.mem_cons_self, Instruction.source_of_parse parsed⟩
        · exact later behind among
      | false =>
        by_cases single : tokens raw = [header.toList]
        · rw [loadLines_header single] at loaded
          exact ⟨later loaded member, .inr ⟨(raw, k), List.mem_cons_self, single⟩⟩
        · rw [loadLines_headless empty single] at loaded
          cases loaded

/-- Every operand of a program is read from a word that stands in its code, and the header stands
there too. -/
theorem standsIn_of_operand (loaded : load code = .ok p) (member : i ∈ p.instructions)
    (operand : o ∈ i.operands) :
    (∃ w, Operand.parse (String.ofList w) = .ok o ∧ (∀ c ∈ w, isBlank c = false) ∧
      StandsIn isWordEnd w code.toList) ∧ header.toList <:+: code.toList := by
  unfold load at loaded
  dsimp only at loaded
  split at loaded
  · cases loaded
  · cases parsed : loadLines false ((lines code.toList).zipIdx 1) with
    | error f =>
      rw [parsed] at loaded
      cases loaded
    | ok is =>
      rw [parsed] at loaded
      cases loaded
      have member := List.mem_toArray.mp member
      have line {e : List Char × Nat} (listed : e ∈ (lines code.toList).zipIdx 1) : e.1 ∈
          lines code.toList :=
        List.fst_mem_of_mem_zipIdx listed
      obtain ⟨⟨e, listed, source⟩, header⟩ := loadLines_lines parsed member
      constructor
      · have read : Except.ok o ∈ i.words.map Operand.parse := by
          rw [(loadLines_written parsed member).operands]
          exact List.mem_map_of_mem operand
        obtain ⟨word, among, read⟩ := List.mem_map.mp read
        obtain ⟨w, behind, rfl⟩ := List.mem_map.mp among
        have token : w ∈ tokens e.1 := by
          rw [← fields_significant, ← String.toList_ofList (l := significant e.1), ← source]
          exact List.mem_of_mem_tail behind
        exact ⟨w, read, (standsIn_of_mem_runs token).2, standsIn_of_tokens (line listed) token⟩
      · obtain ⟨e, listed, single⟩ := header.resolve_left Bool.false_ne_true
        exact (standsIn_of_tokens (line listed) (single ▸ List.mem_singleton_self _)).isInfix

end Program

namespace Editor.Completion

open Text

variable {a b c f x : Char} {name r s t v w : List Char}

/-- The letters of a frame. -/
def IsFrame (a f : Char) : Prop := a.toUpper ∈ ['G', 'L', 'T'] ∧ f.toUpper = 'F'

theorem nameAfterFrame?_eq_some :
    nameAfterFrame? s = some name ↔
      ∃ a f r, s = a :: f :: '@' :: r ∧ IsFrame a f ∧ name = r.takeWhile isNameChar := by
  unfold nameAfterFrame? IsFrame
  constructor
  · intro found
    split at found
    · split at found
      · rename_i frame
        exact ⟨_, _, _, rfl, frame, (Option.some.inj found).symm⟩
      · cases found
    · cases found
  · rintro ⟨a, f, r, rfl, frame, rfl⟩
    exact if_pos frame

/-- A variable at the beginning of a text is found, and the search goes on behind it. -/
theorem variablesIn_variable (frame : IsFrame a f) (some : r.takeWhile isNameChar ≠ []) :
    variablesIn (a :: f :: '@' :: r) =
      (a :: f :: '@' :: r.takeWhile isNameChar) :: variablesIn (r.dropWhile isNameChar) := by
  obtain ⟨d, rest, same⟩ := List.exists_cons_of_ne_nil some
  have found : nameAfterFrame? (a :: f :: '@' :: r) = .some (d :: rest) :=
    nameAfterFrame?_eq_some.mpr ⟨a, f, r, rfl, frame, same.symm⟩
  have whole : r = (d :: rest) ++ r.dropWhile isNameChar := by
    rw [← same, List.takeWhile_append_dropWhile]
  rw [variablesIn, found, same]
  dsimp only
  have taken : r.take (rest.length + 1) = d :: rest := by
    rw [whole]
    simp
  have dropped : r.drop (rest.length + 1) = r.dropWhile isNameChar := by
    conv_lhs => rw [whole]
    simp
  rw [show rest.length + 4 = rest.length + 1 + 3 from rfl,
    show rest.length + 3 = rest.length + 1 + 2 from rfl]
  simp only [List.take_succ_cons, List.drop_succ_cons, taken, dropped]

/-- A character at which no variable begins is passed over. -/
theorem variablesIn_other
    (other : ∀ a f r, c :: s = a :: f :: '@' :: r → IsFrame a f → r.takeWhile isNameChar = []) :
    variablesIn (c :: s) = variablesIn s := by
  rw [variablesIn]
  split
  · rename_i d name found
    obtain ⟨a, f, r, whole, frame, same⟩ := nameAfterFrame?_eq_some.mp found
    rw [other a f r whole frame] at same
    cases same
  · rfl

/-- A text is empty, begins with a variable or begins with a character that is passed over. -/
theorem search_cases (s : List Char) :
    s = [] ∨ (∃ a f r, s = a :: f :: '@' :: r ∧ IsFrame a f ∧ r.takeWhile isNameChar ≠ []) ∨
      ∃ c t, s = c :: t ∧
        ∀ a f r, c :: t = a :: f :: '@' :: r → IsFrame a f → r.takeWhile isNameChar = [] := by
  cases s with
  | nil => exact .inl rfl
  | cons c t =>
    by_cases begins : ∃ a f r, c :: t = a :: f :: '@' :: r ∧ IsFrame a f ∧
      r.takeWhile isNameChar ≠ []
    · exact .inr (.inl begins)
    · push Not at begins
      exact .inr (.inr ⟨c, t, rfl, begins⟩)

/-- Characters that are part of no variable. -/
def IsApart (x : Char) : Prop := isNameChar x = false ∧ x ≠ '@'

theorem isNameChar_of_toUpper (capital : isNameChar c.toUpper = true) : isNameChar c = true := by
  by_cases small : 97 ≤ c.toNat ∧ c.toNat ≤ 122
  · have table : ∀ n < 123, 97 ≤ n → isNameChar (Char.ofNat n) = true := by decide
    have letter := table c.toNat (by omega) small.1
    rwa [Char.ofNat_toNat] at letter
  · have same : c.toUpper = c := by
      unfold Char.toUpper
      exact dif_neg small
    rwa [same] at capital

theorem IsFrame.isNameChar (frame : IsFrame a f) : isNameChar a = true ∧ isNameChar f = true := by
  have letters : ∀ c ∈ ['G', 'L', 'T'], Completion.isNameChar c = true :=
    List.all_eq_true.mp (by decide)
  refine ⟨isNameChar_of_toUpper (letters _ frame.1), isNameChar_of_toUpper ?_⟩
  rw [frame.2]
  decide

/-- No variable begins before such a character and ends behind it. -/
theorem IsApart.not_crossed (apart : IsApart x) (some : s ≠ [])
    (whole : s ++ x :: t = a :: f :: '@' :: r) (frame : IsFrame a f) :
    ∃ r', s = a :: f :: '@' :: r' ∧ r = r' ++ x :: t := by
  obtain ⟨other, unmarked⟩ := apart
  match s, some with
  | [c], _ =>
    obtain ⟨rfl, rfl, -⟩ : c = a ∧ x = f ∧ t = '@' :: r := by simpa using whole
    exact absurd frame.isNameChar.2 (by simp [other])
  | [c, d], _ =>
    obtain ⟨-, -, same, -⟩ : c = a ∧ d = f ∧ x = '@' ∧ t = r := by simpa using whole
    exact absurd same unmarked
  | c :: d :: e :: u, _ =>
    obtain ⟨rfl, rfl, rfl, same⟩ : c = a ∧ d = f ∧ e = '@' ∧ u ++ x :: t = r := by simpa using whole
    exact ⟨u, rfl, same.symm⟩

theorem IsApart.takeWhile (apart : IsApart x) (r t : List Char) :
    (r ++ x :: t).takeWhile isNameChar = r.takeWhile isNameChar ∧
      (r ++ x :: t).dropWhile isNameChar = r.dropWhile isNameChar ++ x :: t := by
  induction r with
  | nil => simp [apart.1]
  | cons c r ih => by_cases char : isNameChar c = true <;> simp [char, ih]

/-- A character that is part of no variable divides the search. -/
theorem variablesIn_append_cons (apart : IsApart x) (s t : List Char) :
    variablesIn (s ++ x :: t) = variablesIn s ++ variablesIn t := by
  induction length : s.length using Nat.strong_induction_on generalizing s with
  | _ n ih =>
    subst length
    rcases search_cases s with rfl | ⟨a, f, r, rfl, frame, some⟩ | ⟨c, u, rfl, other⟩
    · have other (a f : Char) (r : List Char) (whole : x :: t = a :: f :: '@' :: r)
        (frame : IsFrame a f) :
          r.takeWhile isNameChar = [] := by
        obtain ⟨rfl, -⟩ := List.cons.inj whole
        exact absurd frame.isNameChar.1 (by simp [apart.1])
      rw [List.nil_append, variablesIn_other other, variablesIn, List.nil_append]
    · obtain ⟨taken, dropped⟩ := apart.takeWhile r t
      have shorter : (r.dropWhile isNameChar).length < (a :: f :: '@' :: r).length := by
        have le := (List.dropWhile_sublist isNameChar (l := r)).length_le
        simp only [List.length_cons]
        omega
      have found := variablesIn_variable (r := r ++ x :: t) frame (taken ▸ some)
      rw [taken, dropped, ih _ shorter _ rfl] at found
      rw [variablesIn_variable frame some]
      exact found
    · have other' (a f : Char) (r : List Char) (whole : c :: (u ++ x :: t) = a :: f :: '@' :: r)
          (frame : IsFrame a f) : r.takeWhile isNameChar = [] := by
        obtain ⟨r', same, rfl⟩ := apart.not_crossed (List.cons_ne_nil c u) whole frame
        rw [(apart.takeWhile r' t).1]
        exact other a f r' same frame
      rw [List.cons_append, variablesIn_other other', variablesIn_other other]
      exact ih u.length (by simp) u rfl

theorem isApart_of_isWordEnd (ends : Program.isWordEnd x = true) : IsApart x := by
  by_cases ascii : x.toNat < 128
  · have table : ∀ n < 128, Program.isWordEnd (Char.ofNat n) = true →
        isNameChar (Char.ofNat n) = false ∧ Char.ofNat n ≠ '@' := by decide
    have found := table x.toNat ascii
    rw [Char.ofNat_toNat] at found
    exact found ends
  · -- No blank beyond ASCII is one of the letters that stand for an ASCII one.
    have beyond {c : Char} (inside : c.toNat < 128) : x ≠ c := by
      rintro rfl
      exact ascii inside
    have blank : isBlank x = true := by simpa [Program.isWordEnd, beyond] using ends
    simp only [isBlank, Bool.or_eq_true, Bool.and_eq_true, decide_eq_true_eq, beq_iff_eq] at blank
    have same : foldAscii x = x := by
      unfold foldAscii
      dsimp only
      rw [if_neg (by omega), if_neg (by omega), if_neg (by omega), if_neg (by omega)]
    refine ⟨?_, beyond (by decide)⟩
    have mark : Operand.isIdentifierMark x = false := by
      simp [Operand.isIdentifierMark, beyond]
    have digit : isAsciiDigit x = false := by
      simp only [isAsciiDigit, Bool.and_eq_false_iff, decide_eq_false_iff_not]
      omega
    have letter : isAsciiLetter x = false := by
      simp only [isAsciiLetter, Bool.or_eq_false_iff, Bool.and_eq_false_iff,
        decide_eq_false_iff_not]
      omega
    simp [isNameChar, same, mark, digit, letter]

/-- What is found in a word is found in a text in which the word stands. -/
theorem mem_variablesIn_of_standsIn (stands : StandsIn Program.isWordEnd w s)
    (found : v ∈ variablesIn w) :
    v ∈ variablesIn s := by
  obtain ⟨before, after, rfl, front, back⟩ := stands
  have behind : v ∈ variablesIn (w ++ after) := by
    cases after with
    | nil => rwa [List.append_nil]
    | cons x after =>
      rw [variablesIn_append_cons (isApart_of_isWordEnd (back x rfl))]
      exact List.mem_append_left _ found
  cases before using List.reverseRecOn with
  | nil => exact behind
  | append_singleton before x =>
    rw [List.append_assoc, List.singleton_append,
      variablesIn_append_cons (isApart_of_isWordEnd (front x (by simp)))]
    exact List.mem_append_right _ behind

/-- Whatever is found has a frame and a name of known characters. -/
theorem form_of_mem_variablesIn (found : v ∈ variablesIn s) :
    ∃ a f name, v = a :: f :: '@' :: name ∧ ∀ c ∈ name, isNameChar c = true := by
  induction length : s.length using Nat.strong_induction_on generalizing s with
  | _ n ih =>
    subst length
    rcases search_cases s with rfl | ⟨a, f, r, rfl, frame, some⟩ | ⟨c, u, rfl, other⟩
    · rw [variablesIn] at found
      cases found
    · rw [variablesIn_variable frame some] at found
      rcases List.mem_cons.mp found with rfl | later
      · exact ⟨a, f, _, rfl, fun c member => List.mem_takeWhile_imp member⟩
      · have le := (List.dropWhile_sublist isNameChar (l := r)).length_le
        exact ih _ (by simp only [List.length_cons]; omega) later rfl
    · rw [variablesIn_other other] at found
      exact ih _ (by simp) found rfl

/-! The words in order. -/

theorem pairwise_eraseDups {ss : List String} (sorted : ss.Pairwise (· ≤ ·)) :
    ss.eraseDups.Pairwise (· < ·) := by
  induction length : ss.length using Nat.strong_induction_on generalizing ss with
  | _ n ih =>
    subst length
    cases ss with
    | nil => exact .nil
    | cons a rest =>
      rw [List.eraseDups_cons]
      obtain ⟨first, sorted⟩ := List.pairwise_cons.mp sorted
      have fewer : (rest.filter (!· == a)).length < (a :: rest).length :=
        Nat.lt_succ_of_le (List.length_filter_le _ _)
      refine List.pairwise_cons.mpr ⟨fun b member => ?_, ih _ fewer (sorted.filter _) rfl⟩
      obtain ⟨among, other⟩ := List.mem_filter.mp (List.mem_eraseDups.mp member)
      refine Decidable.byContradiction fun later => ?_
      have same := String.le_antisymm (first b among) (String.not_lt.mp later)
      simp [same] at other

theorem sortedTexts_pairwise (ss : List String) : (sortedTexts ss).Pairwise (· < ·) := by
  refine pairwise_eraseDups ((List.pairwise_mergeSort ?_ ?_ ss).imp ?_)
  · intro a b c first second
    simp only [Bool.not_eq_true', decide_eq_false_iff_not, String.not_lt] at first second ⊢
    exact String.le_trans first second
  · intro a b
    simp only [Bool.or_eq_true, Bool.not_eq_true', decide_eq_false_iff_not, String.not_lt]
    exact String.le_total a b
  · intro a b first
    simpa only [Bool.not_eq_true', decide_eq_false_iff_not, String.not_lt] using first

theorem mem_sortedTexts {ss : List String} {word : String} : word ∈ sortedTexts ss ↔ word ∈ ss := by
  rw [sortedTexts, List.mem_eraseDups, List.mem_mergeSort]

/-- The variables among what is offered. -/
def offeredVariables (code : String) : List String :=
  ((suggestions code).filter fun s => s.kind = .variableName).map (·.word)

theorem offeredVariables_eq (code : String) :
    offeredVariables code = if occurs Program.header.toList code.toList then
      sortedTexts ((variablesIn code.toList).map String.ofList) else [] := by
  unfold offeredVariables suggestions
  split
  · rename_i missing
    rw [if_neg (by simpa using missing)]
    rfl
  · rename_i present
    have others {kind : SuggestionKind} (other : kind ≠ .variableName) (ss : List String) :
        (ss.map (Suggestion.mk · kind)).filter (fun s => s.kind = .variableName) = [] := by
      simp [List.filter_eq_nil_iff, other]
    have kept (ss : List String) : (ss.map (Suggestion.mk · .variableName)).filter
        (fun s => s.kind = .variableName) = ss.map (Suggestion.mk · .variableName) := by
      simp [List.filter_eq_self]
    rw [if_pos (by simpa using present), List.filter_append, List.filter_append, others (by decide),
      others (by decide), kept, List.nil_append, List.nil_append, List.map_map]
    exact List.map_id _

theorem offeredVariables_pairwise (code : String) : (offeredVariables code).Pairwise (· < ·) := by
  rw [offeredVariables_eq]
  split
  · exact sortedTexts_pairwise _
  · exact .nil

/-- What is offered as a variable is found in the code. -/
theorem mem_variablesIn_of_offered {code word : String} (offered : word ∈ offeredVariables code) :
    word.toList ∈ variablesIn code.toList := by
  rw [offeredVariables_eq] at offered
  split at offered
  · obtain ⟨v, found, rfl⟩ := List.mem_map.mp (mem_sortedTexts.mp offered)
    rwa [String.toList_ofList]
  · cases offered

theorem offered_of_mem_variablesIn {code : String} (header : Program.header.toList <:+: code.toList)
    (found : v ∈ variablesIn code.toList) : String.ofList v ∈ offeredVariables code := by
  rw [offeredVariables_eq, if_pos (occurs_iff.mpr header), mem_sortedTexts]
  exact List.mem_map_of_mem found

/-- A variable as it is spelled in a code. -/
def spelled (f : FrameRef) (name : String) : String := f.spelling ++ "@" ++ name

theorem toList_spelled (f : FrameRef) (name : String) :
    (spelled f name).toList = f.spelling.toList ++ '@' :: name.toList := by
  simp [spelled, String.toList_append]

/-- The characters of a name up to the first that is not known. -/
def knownPart (name : String) : String := String.ofList (name.toList.takeWhile isNameChar)

theorem spelling_isFrame (r : FrameRef) : ∃ a f, r.spelling.toList = [a, f] ∧ IsFrame a f := by
  obtain ⟨kind, first, second⟩ := r
  refine ⟨_, _, String.toList_ofList, ?_⟩
  unfold IsFrame
  cases kind <;> cases first <;> cases second <;> decide

theorem takeWhile_ne_nil_of_isIdentifier (identifier : Operand.isIdentifier name = true) :
    name.takeWhile isNameChar ≠ [] := by
  cases name with
  | nil => cases identifier
  | cons c rest =>
    have first : isNameChar c = true := by
      simp only [Operand.isIdentifier, Operand.isIdentifierStart, Bool.and_eq_true, Bool.or_eq_true]
        at identifier
      simp only [isNameChar, Bool.or_eq_true]
      tauto
    simp [first]

theorem mem_variablesIn_spelled (f : FrameRef) {name : String}
    (identifier : Operand.isIdentifier name.toList = true) :
    (spelled f (knownPart name)).toList ∈ variablesIn (spelled f name).toList := by
  obtain ⟨a, b, spelling, frame⟩ := spelling_isFrame f
  have found := variablesIn_variable frame (takeWhile_ne_nil_of_isIdentifier identifier)
  simp only [toList_spelled, spelling, List.cons_append, List.nil_append, knownPart,
    String.toList_ofList, found]
  exact List.mem_cons_self

/-- A word without blanks that is read as a variable is the spelling of the variable. -/
theorem word_of_variable {f : FrameRef} {name : String}
    (read : Operand.parse (String.ofList w) = .ok (.var f name))
    (unbroken : ∀ c ∈ w, isBlank c = false) :
    w = (spelled f name).toList ∧ Operand.isIdentifier name.toList = true := by
  have reading := Operand.reading_parse w
  rw [read] at reading
  cases reading with
  | denoted denotes =>
    cases denotes with
    | var f identifier ended =>
      rw [toList_spelled, String.toList_ofList]
      rcases ended with rfl | rfl
      · exact ⟨rfl, identifier⟩
      · exact absurd (unbroken '\n' (by simp)) (by decide)

/-- Every variable of a program stands in the code in its spelling, and the search comes upon it. It
is offered as it is spelled exactly if the search knows all characters of its name; otherwise it is
offered with its name cut off before the first unknown character. What is offered is in order, each
variable once. -/
theorem variables_offered {code : String} {p : Program} {i : Instruction} {f : FrameRef}
    {name : String} (loaded : Program.load code = .ok p) (member : i ∈ p.instructions)
    (operand : Operand.var f name ∈ i.operands) :
    StandsIn Program.isWordEnd (spelled f name).toList code.toList ∧
    (spelled f name ∈ offeredVariables code ↔ ∀ c ∈ name.toList, isNameChar c = true) ∧
    (spelled f (knownPart name) ∈ offeredVariables code ∧ knownPart name ≠ "") ∧
    (offeredVariables code).Pairwise (· < ·) := by
  obtain ⟨⟨w, read, unbroken, stands⟩, header⟩ := Program.standsIn_of_operand loaded member operand
  obtain ⟨rfl, identifier⟩ := word_of_variable read unbroken
  have found := mem_variablesIn_of_standsIn stands (mem_variablesIn_spelled f identifier)
  have offered := offered_of_mem_variablesIn header found
  rw [String.ofList_toList] at offered
  refine ⟨stands, ⟨fun whole c inside => ?_, fun known => ?_⟩, ⟨offered, ?_⟩,
    offeredVariables_pairwise code⟩
  · obtain ⟨a, b, known, same, chars⟩ := form_of_mem_variablesIn (mem_variablesIn_of_offered whole)
    obtain ⟨a', b', spelling, -⟩ := spelling_isFrame f
    rw [toList_spelled, spelling] at same
    obtain ⟨-, -, rfl⟩ : a' = a ∧ b' = b ∧ name.toList = known := by simpa using same
    exact chars c inside
  · have all : knownPart name = name := by
      rw [knownPart, List.takeWhile_eq_self_iff.mpr known, String.ofList_toList]
    rwa [all] at offered
  · rw [knownPart, Ne, String.ofList_eq_empty_iff]
    exact takeWhile_ne_nil_of_isIdentifier identifier

/-- A variable directly before a comment. -/
def commentedCode : String := ".IFJcode17\nDEFVAR gF@a-1#GF@b"

def commentedInstruction : Instruction :=
  ⟨.defVar, [.var ⟨.globals, false, true⟩ "a-1"], 2, "DEFVAR gF@a-1"⟩

theorem commentedCode_offers :
    Program.load commentedCode = .ok ⟨#[commentedInstruction]⟩ ∧ "gF@a-1" ∈
      offeredVariables commentedCode := by
  have loaded : Program.load commentedCode = .ok ⟨#[commentedInstruction]⟩ := by decide
  have offered := variables_offered loaded (Array.mem_singleton.mpr rfl) List.mem_cons_self
  exact ⟨loaded, offered.2.1.mpr (List.all_eq_true.mp (by decide))⟩

/-- A variable with a letter that the search does not know. -/
def accentedCode : String := ".IFJcode17\nDEFVAR GF@xé\n"

def accentedInstruction : Instruction :=
  ⟨.defVar, [.var ⟨.globals, true, true⟩ "xé"], 2, "DEFVAR GF@xé"⟩

/-- The program has the variable, and it is not offered. -/
theorem accented_variable_missed :
    Program.load accentedCode = .ok ⟨#[accentedInstruction]⟩ ∧
      Operand.var ⟨.globals, true, true⟩ "xé" ∈ accentedInstruction.operands ∧
      "GF@xé" ∉ offeredVariables accentedCode := by
  refine ⟨by decide, List.mem_cons_self, fun offered => ?_⟩
  obtain ⟨a, f, name, same, chars⟩ := form_of_mem_variablesIn (mem_variablesIn_of_offered offered)
  obtain ⟨-, -, rfl⟩ : 'G' = a ∧ 'F' = f ∧ ['x', 'é'] = name := by simpa using same
  exact absurd (chars 'é' (by simp)) (by decide)

end Editor.Completion
end TacBench
