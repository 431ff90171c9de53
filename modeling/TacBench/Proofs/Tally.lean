import TacBench.Bench.Runner
import TacBench.Proofs.Comments

/-! The summary of a run. It counts the tests that passed among those that were not skipped and has
a mark for every test. The verdict counts otherwise: a test that was skipped makes the run fail as a
test that failed does, and when all tests were skipped there is no summary at all. -/
namespace TacBench.Bench

/-- The character with which the code of a style begins, and no other text of a log. -/
def escape : CodePoint := .char '\x1b'

/-- A text whose codes are those of the given styles, and what is left of it without them. -/
inductive Bare (styles : List Style) : Text → Text → Prop where
  | nil : Bare styles [] []
  | code {raw plain : Text} (s : Style) (among : s ∈ styles) (rest : Bare styles raw plain) :
      Bare styles (Text.ofString s.code ++ raw) plain
  | char {raw plain : Text} {c : CodePoint} (other : c ≠ escape) (rest : Bare styles raw plain) :
      Bare styles (c :: raw) (c :: plain)

namespace Bare

variable {styles : List Style} {raw raw' plain plain' t : Text}

theorem append (first : Bare styles raw plain) (second : Bare styles raw' plain') :
    Bare styles (raw ++ raw') (plain ++ plain') := by
  induction first with
  | nil => exact second
  | code s among _ ih =>
    rw [List.append_assoc]
    exact .code s among ih
  | char other _ ih => exact .char other ih

theorem of_plain (without : escape ∉ t) : Bare styles t t := by
  induction t with
  | nil => exact .nil
  | cons c r ih =>
    rw [List.mem_cons, not_or] at without
    exact .char (Ne.symm without.1) (ih without.2)

theorem flatMap {α : Type} {f g : α → Text} {xs : List α}
    (each : ∀ x ∈ xs, Bare styles (f x) (g x)) :
    Bare styles (xs.flatMap f) (xs.flatMap g) := by
  induction xs with
  | nil => exact .nil
  | cons x xs ih =>
    rw [List.forall_mem_cons] at each
    exact each.1.append (ih each.2)

/-- Without styles nothing is there but the text that is left. -/
theorem eq_of_nil (bare : Bare [] raw plain) : raw = plain := by
  induction bare with
  | nil => rfl
  | code s among => cases among
  | char _ _ ih => rw [ih]

theorem escape_notMem (bare : Bare styles raw plain) : escape ∉ plain := by
  induction bare with
  | nil => exact List.not_mem_nil
  | code _ _ _ ih => exact ih
  | char other _ ih => simp [Ne.symm other, ih]

end Bare

theorem code_eq (s : Style) : ∃ r, Text.ofString s.code = escape :: r ∧ escape ∉ r := by
  refine ⟨(Text.ofString s.code).drop 1, ?_⟩
  cases s <;> decide

theorem not_prefix_of_ne {s s' : Style} (different : s' ≠ s) (raw : Text) :
    (Text.ofString s.code).isPrefixOf (Text.ofString s'.code ++ raw) = false := by
  cases s <;> cases s' <;> first | exact absurd rfl different | rfl

theorem replace_cons_of_ne {old new r : Text} {b c : CodePoint} (other : c ≠ b) :
    Text.replace (b :: old) new (c :: r) = c :: Text.replace (b :: old) new r := by
  rw [Text.replace, dif_neg]
  simp [List.isPrefixOf, Ne.symm other]

theorem replace_append_of_notMem {old new r w : Text} {b : CodePoint} (without : b ∉ w) :
    Text.replace (b :: old) new (w ++ r) = w ++ Text.replace (b :: old) new r := by
  induction w with
  | nil => rfl
  | cons c w ih =>
    rw [List.mem_cons, not_or] at without
    rw [List.cons_append, replace_cons_of_ne (Ne.symm without.1), ih without.2, List.cons_append]

theorem replace_own_code (s : Style) (raw : Text) :
    Text.replace (Text.ofString s.code) [] (Text.ofString s.code ++ raw) =
      Text.replace (Text.ofString s.code) [] raw := by
  obtain ⟨r, code, -⟩ := code_eq s
  rw [code, List.cons_append, Text.replace, dif_pos]
  · rw [← List.cons_append, List.drop_left, List.nil_append]
  · simp [List.isPrefixOf_iff_prefix]

theorem replace_other_code {s s' : Style} (different : s' ≠ s) (raw : Text) :
    Text.replace (Text.ofString s.code) [] (Text.ofString s'.code ++ raw) =
      Text.ofString s'.code ++ Text.replace (Text.ofString s.code) [] raw := by
  obtain ⟨r, code, -⟩ := code_eq s
  obtain ⟨r', code', inside⟩ := code_eq s'
  have unlike := not_prefix_of_ne different raw
  rw [code, code', List.cons_append] at unlike
  rw [code, code', List.cons_append, Text.replace, dif_neg (by simp [unlike]),
    replace_append_of_notMem inside, List.cons_append]

/-- Replacing the code of a style by nothing takes that style out and leaves all others. -/
theorem Bare.replace {styles : List Style} {raw plain : Text} (bare : Bare styles raw plain)
    (s : Style) :
    Bare (styles.filter (· ≠ s)) (Text.replace (Text.ofString s.code) [] raw) plain := by
  induction bare with
  | nil =>
    rw [Text.replace]
    exact .nil
  | code s' among _ ih =>
    by_cases same : s' = s
    · rw [same, replace_own_code]
      exact ih
    · rw [replace_other_code same]
      exact .code s' (by simp [among, same]) ih
  | char other _ ih =>
    obtain ⟨r, code, -⟩ := code_eq s
    rw [code] at ih ⊢
    rw [replace_cons_of_ne other]
    exact .char other ih

/-- Taking out one style after the other leaves the plain text. -/
theorem Bare.withoutStyles {styles : List Style} {raw plain : Text} (bare : Bare styles raw plain) :
    withoutStyles raw = plain := by
  have taken (more : List Style) : ∀ {styles : List Style} {raw : Text}, (∀ s ∈ styles, s ∈ more) →
      Bare styles raw plain → more.foldl (fun s style => Text.replace style.code [] s)
        raw = plain := by
    induction more with
    | nil =>
      intro styles raw listed bare
      rw [List.eq_nil_iff_forall_not_mem.mpr fun s member => List.not_mem_nil (listed s member)]
        at bare
      exact bare.eq_of_nil
    | cons s more ih =>
      intro styles raw listed bare
      refine ih (fun s' member => ?_) (bare.replace s)
      simp only [List.mem_filter, decide_eq_true_eq] at member
      exact (List.mem_cons.mp (listed s' member.1)).resolve_left member.2
  refine taken Style.all (fun s _ => ?_) bare
  cases s <;> decide

/-- The codes of styles in front of a text leave the text. -/
theorem bare_styled {styles : List Style} {raw plain : Text} (shown : List Style)
    (among : ∀ s ∈ shown, s ∈ styles) (rest : Bare styles raw plain) :
    Bare styles (Log.styled shown raw) plain := by
  unfold Log.styled
  induction shown with
  | nil => exact rest
  | cons s shown ih =>
    rw [List.forall_mem_cons] at among
    have joined : Text.ofString (String.join ((s :: shown).map Style.code)) =
        Text.ofString s.code ++ Text.ofString (String.join (shown.map Style.code)) := by
      rw [List.map_cons, String.join_cons, Text.ofString_append]
    rw [joined, List.append_assoc]
    exact .code s among.1 (ih among.2)

theorem bare_ofString {styles : List Style} {u : String} (without : '\x1b' ∉ u.toList) :
    Bare styles (Text.ofString u) (Text.ofString u) := by
  refine .of_plain fun member => without ?_
  obtain ⟨c, inside, same⟩ := List.mem_map.mp member
  rwa [CodePoint.char.inj same] at inside

theorem escape_notMem_toDigits (n : Nat) : '\x1b' ∉ Nat.toDigits 10 n := by
  intro member
  exact absurd (Nat.isDigit_of_mem_toDigits (by decide) (by decide) member) (by decide)

theorem escape_notMem_share (passed ran : Nat) : '\x1b' ∉ (Log.share passed ran).toList := by
  unfold Log.share
  cases Binary64.mul (Binary64.div (.ofInt passed) (.ofInt ran)) (.ofInt 100) with
  | nan => decide
  | infinite negative => simp [Binary64.threePlaces]
  | finite negative units => simp [Binary64.threePlaces, escape_notMem_toDigits]

namespace Log

variable {l : Log} {outcomes : List (Option Bool)}

/-- Everything that has been logged: what is shown, and what is held back behind it. -/
def logged (l : Log) : Text := l.text ++ (l.held.getD []).flatten

theorem emit_logged (l : Log) (piece : Text) : (l.emit piece).logged = l.logged ++ piece := by
  cases held : l.held <;> simp [emit, logged, text, held]

theorem emit_colors (l : Log) (piece : Text) : (l.emit piece).colors = l.colors := by
  cases held : l.held <;> simp [emit, held]

theorem put_logged (l : Log) (tabs : Nat) (raw : Text) (ends : Bool) :
    (l.put tabs raw ends).logged = l.logged ++ (List.replicate tabs (.char '\t') ++
      ((if l.colors then raw ++ Text.ofString Style.reset.code else withoutStyles raw) ++
        if ends then Text.ofString "\n" else [])) := by
  cases colors : l.colors <;> cases ends <;> simp [put, emit_logged, emit_colors, colors]

/-- With colors or without, the same line is read in the log. -/
theorem line_logged {raw plain : Text} (bare : Bare Style.all raw plain) (l : Log) :
    ∃ new, (l.put 0 raw true).logged = l.logged ++ new ∧
      withoutStyles new = plain ++ Text.ofString "\n" := by
  have feed : Bare Style.all (Text.ofString "\n") (Text.ofString "\n") := bare_ofString (by decide)
  refine ⟨_, put_logged l 0 raw true, ?_⟩
  cases l.colors with
  | false =>
    have rest : Bare Style.all plain plain := .of_plain bare.escape_notMem
    simpa [bare.withoutStyles] using (rest.append feed).withoutStyles
  | true =>
    have reset : Bare Style.all (Text.ofString Style.reset.code ++ Text.ofString "\n")
        (Text.ofString "\n") :=
      .code .reset (by decide) feed
    simpa using (bare.append reset).withoutStyles

/-- What is seen of a mark. -/
def seenMark : Option Bool → Text
  | some true => "."
  | some false => "×"
  | none => "_"

/-- The summary as it is read: the share and the number of tests that passed among those that were
not skipped, and a mark for each test, in lines of the given width. -/
def summary (width : Int) (outcomes : List (Option Bool)) : Text :=
  let passed := outcomes.count (some true)
  let ran := outcomes.countP (·.isSome)
  Text.ofString ("RESULTS: " ++ share passed ran ++ "% (" ++ toString passed ++ "/" ++
    toString ran ++ ")\n") ++
    ((outcomes.zipIdx 1).flatMap fun (o, i) =>
      seenMark o ++ if (i : Int) % width = 0 then [.char '\n'] else []) ++ Text.ofString "\n"

theorem bare_mark (o : Option Bool) : Bare Style.all (mark o) (seenMark o) := by
  rcases o with _ | _ | _ <;> exact bare_styled _ (by decide) (bare_ofString (by decide))

theorem bare_marks (width : Int) (outcomes : List (Option Bool)) :
    Bare Style.all (marks width outcomes) ((outcomes.zipIdx 1).flatMap fun (o, i) =>
      seenMark o ++ if (i : Int) % width = 0 then [.char '\n'] else []) := by
  refine .flatMap fun (o, i) _ => (bare_mark o).append ?_
  split
  · exact .char (by decide) .nil
  · exact .nil

/-- The tests that were not skipped are those that passed or failed. -/
theorem ran_eq (outcomes : List (Option Bool)) :
    outcomes.length - outcomes.count none = outcomes.countP (·.isSome) := by
  have parts := List.length_eq_countP_add_countP (l := outcomes) (·.isSome)
  have skipped : outcomes.countP (fun o => ¬ o.isSome = true) = outcomes.count none := by
    rw [List.count]
    congr 1
    funext o
    cases o <;> rfl
  omega

theorem bare_head {share : String} (plain : '\x1b' ∉ share.toList) (passed ran : Nat) :
    Bare Style.all (styled [.underline, .bold] "RESULTS:" ++ styled [.reset, .bold] s!" {share}%" ++
        styled [.reset] s!" ({passed}/{ran})\n")
      ("RESULTS: " ++ share ++ "% (" ++ toString passed ++ "/" ++
          toString ran ++ ")\n" : String) := by
  have title : Bare Style.all (styled [.underline, .bold] "RESULTS:") (Text.ofString "RESULTS:") :=
    bare_styled _ (by decide) (bare_ofString (by decide))
  have percent : Bare Style.all (styled [.reset, .bold] s!" {share}%")
      (Text.ofString s!" {share}%") := by
    refine bare_styled _ (by decide) (bare_ofString ?_)
    simpa [toString] using plain
  have counts : Bare Style.all (styled [.reset] s!" ({passed}/{ran})\n")
      (Text.ofString s!" ({passed}/{ran})\n") := by
    refine bare_styled _ (by decide) (bare_ofString ?_)
    simp [toString, escape_notMem_toDigits]
  convert (title.append percent).append counts using 1
  simp [Text.ofString, Text.ofChars, toString]

theorem all_passed_iff (outcomes : List (Option Bool)) :
    (∀ o ∈ outcomes, o = some true) ↔ ¬ (some false ∈ outcomes ∨ none ∈ outcomes) := by
  constructor
  · rintro passed (failed | skipped)
    · cases passed _ failed
    · cases passed _ skipped
  · intro clean o member
    rcases o with _ | _ | _
    · exact absurd (.inr member) clean
    · exact absurd (.inl member) clean
    · rfl

theorem results?_eq (some : outcomes ≠ []) :
    l.results? outcomes = if outcomes.countP (·.isSome) = 0 ∨ l.width = 0 then none else
      .some (if outcomes.count (.some true) = outcomes.length then .passed else .failed, l.put 0
        (styled [.underline, .bold] "RESULTS:" ++ styled [.reset, .bold]
            s!" {share (outcomes.count (.some true)) (outcomes.countP (·.isSome))}%" ++
          styled [.reset] s!" ({outcomes.count (.some true)}/{outcomes.countP (·.isSome)})\n" ++
          styled [.reset, .bold] (marks l.width outcomes)) true) := by
  have given : outcomes.isEmpty = false := by simpa using some
  simp only [results?, given, ran_eq, Bool.false_eq_true, if_false]

/-- The summary counts the tests that passed among those that were not skipped. There is none when
all tests were skipped or the lines have no width, and a test that was skipped makes the run fail
just as one that failed. -/
theorem summary_exact (l : Log) {outcomes : List (Option Bool)} (some : outcomes ≠ []) :
    (l.results? outcomes = none ↔ (∀ o ∈ outcomes, o = none) ∨ l.width = 0) ∧
    ∀ v l', l.results? outcomes = .some (v, l') →
      (∃ new, l'.logged = l.logged ++ new ∧ withoutStyles new = summary l.width outcomes) ∧
      (v = .failed ↔ .some false ∈ outcomes ∨ none ∈ outcomes) ∧
      (v = .passed ↔ ∀ o ∈ outcomes, o = .some true) := by
  have made := results?_eq (l := l) some
  constructor
  · rw [made]
    split
    · rename_i skipped
      simpa using skipped
    · rename_i ran
      simpa using ran
  · intro v l' summed
    rw [made] at summed
    split at summed
    · cases summed
    · cases summed
      have passed : outcomes.count (.some true) = outcomes.length ↔
          ∀ o ∈ outcomes, o = .some true := by
        rw [List.count_eq_length]
        exact forall₂_congr fun _ _ => eq_comm
      refine ⟨?_, ?_, ?_⟩
      · have text := (bare_head (escape_notMem_share (outcomes.count (.some true))
          (outcomes.countP (·.isSome))) (outcomes.count (.some true))
            (outcomes.countP (·.isSome))).append
          (bare_styled [.reset, .bold] (by decide) (bare_marks l.width outcomes))
        exact line_logged text l
      · rw [← not_iff_not, ← all_passed_iff, ← passed]
        split <;> simp_all
      · rw [← passed]
        split <;> simp_all

/-- One test of each kind, on lines with two marks. -/
theorem oneOfEach_summary :
    ∃ v l', results? { width := 2 } [some true, some false, none] = some (v, l') ∧ v = .failed ∧
      ∃ new, l'.logged = logged { width := 2 } ++ new ∧
        withoutStyles new = Text.ofString "RESULTS: 50.000% (1/2)\n.×\n_\n" := by
  have given : [some true, some false, none] ≠ [] := by decide
  obtain ⟨ran, told⟩ := summary_exact { width := 2 } given
  cases summed : results? { width := 2 } [some true, some false, none] with
  | none =>
    have skipped := (ran.mp summed).resolve_right (by decide) (some true) (by decide)
    cases skipped
  | some result =>
    obtain ⟨read, failed, -⟩ := told _ _ summed
    have text : summary 2 [some true, some false, none] =
        Text.ofString "RESULTS: 50.000% (1/2)\n.×\n_\n" := by decide +kernel
    exact ⟨_, _, rfl, failed.mpr (by decide), text ▸ read⟩

/-- A run in which every test that was carried out passed fails because of the test that was
skipped, and a run in which all tests were skipped has no summary. -/
theorem skipped_test_fails_run :
    (results? {} [some true, none]).map (·.1) = some .failed ∧ some false ∉ [some true, none] ∧
      (results? {} [none]).isNone := by
  decide +kernel

end Log
end TacBench.Bench
