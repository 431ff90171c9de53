import TacBench.Bench.Report
import TacBench.Proofs.Comments

/-! The text of a test log as code: all of it is comments but the listing, and the listing has the
words of the compiled program, line by line. -/
namespace TacBench

open Text Program

namespace Text

variable {sep x : Text} {xs : List Text}

theorem unbroken_joined {u v : String} (first : Unbroken u) (second : Unbroken v) :
    Unbroken (Text.ofString (u ++ v)) := by
  rw [ofString_append]
  exact first.append second

theorem intercalate_cons (sep x : Text) (xs : List Text) :
    List.intercalate sep (x :: xs) = x ++ xs.flatMap (sep ++ ·) := by
  induction xs generalizing x with
  | nil => simp [List.intercalate]
  | cons y ys ih => simp only [List.intercalate_cons_cons, ih, List.flatMap_cons, List.append_assoc]

theorem unbroken_intercalate (between : Unbroken sep) (each : ∀ x ∈ xs, Unbroken x) :
    Unbroken (List.intercalate sep xs) := by
  cases xs with
  | nil => exact unbroken_nil
  | cons x xs =>
    rw [intercalate_cons]
    refine (each x List.mem_cons_self).append fun c member => ?_
    obtain ⟨y, later, inside⟩ := List.mem_flatMap.mp member
    exact between.append (each y (List.mem_cons_of_mem x later)) c inside

theorem ofString_intercalate (sep : String) (us : List String) :
    Text.ofString (sep.intercalate us) = List.intercalate (Text.ofString sep)
    (us.map Text.ofString) := by
  induction us with
  | nil => rfl
  | cons u us ih =>
    cases us with
    | nil => simp [String.intercalate_singleton, List.intercalate]
    | cons v vs =>
      rw [String.intercalate_cons_cons, ofString_append, ofString_append, ih]
      simp only [List.map_cons, List.intercalate_cons_cons]

/-- A break before each line and one at the end is one at the beginning and one behind each line. -/
theorem flatMap_feed (mark : Text) (xs : List Text) :
    xs.flatMap (fun x => Text.ofString "\n" ++ (mark ++ x)) ++ Text.ofString "\n" =
      Text.ofString "\n" ++ xs.flatMap fun x => mark ++ x ++ Text.ofString "\n" := by
  induction xs with
  | nil => rfl
  | cons x xs ih => simp only [List.flatMap_cons, List.append_assoc, ih]

theorem intercalate_feed (mark x : Text) (xs : List Text) :
    mark ++ List.intercalate (Text.ofString "\n" ++ mark) (x :: xs) ++ Text.ofString "\n" =
      (x :: xs).flatMap fun y => mark ++ y ++ Text.ofString "\n" := by
  have turned := flatMap_feed mark xs
  simp only [intercalate_cons, List.flatMap_cons, List.append_assoc] at turned ⊢
  rw [turned]

end Text

namespace Diff

theorem mem_slice {α : Type} {xs : Array α} {i j : Nat} {x : α} (member : x ∈ slice xs i j) :
    x ∈ xs.toList :=
  (List.take_sublist j _).subset ((List.drop_sublist i _).subset member)

theorem mem_stretch_lines {α : Type} {a b : Array α} {s : Stretch} {l : Mark × α}
    (member : l ∈ s.lines a b) :
    l.2 ∈ a.toList ∨ l.2 ∈ b.toList := by
  unfold Stretch.lines at member
  split at member
  · obtain ⟨x, inside, rfl⟩ := List.mem_map.mp member
    exact .inl (mem_slice inside)
  · rcases List.mem_append.mp member with removed | added
    · obtain ⟨x, inside, rfl⟩ := List.mem_map.mp removed
      exact .inl (mem_slice inside)
    · obtain ⟨x, inside, rfl⟩ := List.mem_map.mp added
      exact .inr (mem_slice inside)

/-- A difference shows lines of the two sequences only. -/
theorem mem_hunk_lines {α : Type} [DecidableEq α] {a b : List α} {h : Hunk α} {l : Mark × α}
    (hunk : h ∈ hunks a b) (member : l ∈ h.lines) : l.2 ∈ a ∨ l.2 ∈ b := by
  obtain ⟨group, -, made⟩ := List.mem_filterMap.mp hunk
  unfold Hunk.ofGroup at made
  split at made
  · contradiction
  · cases made
    obtain ⟨s, -, inside⟩ := List.mem_flatMap.mp member
    exact mem_stretch_lines inside

theorem unbroken_shownRange (start length : Nat) : Unbroken (shownRange start length) := by
  unfold shownRange
  dsimp only
  split
  · exact unbroken_nat _
  · exact unbroken_joined (unbroken_joined (unbroken_nat _) (by decide)) (unbroken_nat _)

/-- A difference is empty, or begins with two names and a range; the rest comes from hunks as
well. -/
theorem unified_cases (aName bName : Text) (a b : List Text) :
    unified aName bName a b = [] ∨
    ∃ (h : Hunk Text) (rest : List Text),
      unified aName bName a b = ("--- " ++ aName ++ "\n") :: ("+++ " ++ bName ++ "\n") ::
        ↑h.header :: rest ∧
      ∀ x ∈ rest, ∃ h ∈ hunks a b, x ∈ h.text := by
  unfold unified
  cases hunks a b with
  | nil => exact .inl rfl
  | cons h hs =>
    refine .inr ⟨h, (h.lines.map fun l => .char l.1.char :: l.2) ++ hs.flatMap Hunk.text, rfl, ?_⟩
    intro x member
    rcases List.mem_append.mp member with first | later
    · exact ⟨h, List.mem_cons_self, List.mem_cons_of_mem _ first⟩
    · obtain ⟨g, inside, shown⟩ := List.mem_flatMap.mp later
      exact ⟨g, List.mem_cons_of_mem h inside, shown⟩

/-- A header is one line. -/
theorem hunk_header (h : Hunk Text) :
    ∃ w, Unbroken w ∧ Text.ofString h.header = w ++ Text.ofString "\n" := by
  have range (start length : Nat) : Unbroken (shownRange start length) :=
    unbroken_shownRange start length
  have ends : Text.ofString (toString " @@\n") = Text.ofString " @@" ++ Text.ofString "\n" := by
    decide +kernel
  refine ⟨Text.ofString (toString "@@ -" ++ toString (shownRange h.aStart h.aLength) ++
    toString " +" ++
    toString (shownRange h.bStart h.bLength)) ++ Text.ofString " @@", ?_, ?_⟩
  · refine Unbroken.append ?_ (by decide)
    exact unbroken_joined (unbroken_joined (unbroken_joined (by decide) (range _ _)) (by decide))
      (range _ _)
  · rw [List.append_assoc, ← ends, ← ofString_append]
    rfl

end Diff

namespace Bench

variable {s t : Text} {xs : List Text}

theorem unbroken_pointLines (s : Text) : ∀ l ∈ pointLines s, Unbroken l := by
  intro l member
  obtain ⟨broken, inside, rfl⟩ := List.mem_map.mp member
  exact (brokenLines_parts s broken inside).1

theorem skipped_commentLines (s : Text) : Skipped (commentLines s) :=
  .flatMap fun l member => hidden_of_unbroken (unbroken_pointLines s l member)

theorem hidden_bothOutputs (expected actual : Text) : Hidden (bothOutputs expected actual) := by
  have opening : Skipped (Text.ofString "# " ++ Text.ofString "EXPECTED INTERPRETER STDOUT:\n\n") :=
    skipped_of_tokenLines (by decide +kernel) (by decide +kernel)
  have middle : Skipped (Text.ofString "\n\n# CURRENT INTERPRETER STDOUT:\n\n") :=
    skipped_of_tokenLines (by decide +kernel) (by decide +kernel)
  have closing : Skipped (Text.ofString "\n" ++ Text.ofString "\n") := skipped_of_breaks (by decide)
  have whole := (((opening.append (skipped_commentLines expected)).append middle).append
    (skipped_commentLines actual)).append closing
  simpa only [Hidden, bothOutputs, List.append_assoc] using whole

/-- A line of a difference: a mark before a line of either output, with the break that ends it. -/
theorem hidden_marked {a b : Text} {h : Diff.Hunk Text} {l : Diff.Mark × Text}
    (hunk : h ∈ Diff.hunks (keptLines CodePoint.seen a) (keptLines CodePoint.seen b))
    (member : l ∈ h.lines) :
    Hidden (.char l.1.char :: l.2) := by
  have kept : ∃ s, l.2 ∈ keptLines CodePoint.seen s := by
    rcases Diff.mem_hunk_lines hunk member with first | second
    · exact ⟨a, first⟩
    · exact ⟨b, second⟩
  obtain ⟨s, kept⟩ := kept
  obtain ⟨broken, inside, same⟩ := List.mem_map.mp kept
  have parts := brokenLines_parts s broken inside
  have marked : Unbroken [.char l.1.char] := by cases l.1 <;> decide
  rw [← same]
  exact hidden_broken (marked.append parts.1) parts.2

theorem hidden_hunk_text {a b : Text} {h : Diff.Hunk Text}
    (hunk : h ∈ Diff.hunks (keptLines CodePoint.seen a) (keptLines CodePoint.seen b)) :
    ∀ x ∈ h.text, Hidden x := by
  intro x member
  rcases List.mem_cons.mp member with rfl | later
  · obtain ⟨w, unbroken, same⟩ := Diff.hunk_header h
    rw [same]
    exact hidden_broken unbroken (by decide)
  · obtain ⟨l, inside, rfl⟩ := List.mem_map.mp later
    exact hidden_marked hunk inside

theorem feed_then_sign :
    Text.ofString "\n# " = Text.ofString "\n" ++ Text.ofString "# " := by decide

/-- The lines of a difference behind the first range. -/
theorem skipped_further (hidden : ∀ x ∈ xs, Hidden x) :
    Skipped (xs.flatMap (fun l => Text.ofString "\n# " ++ l) ++ Text.ofString "\n") := by
  have turned : xs.flatMap (fun l => Text.ofString "\n# " ++ l) ++ Text.ofString "\n" =
      Text.ofString "\n" ++ xs.flatMap fun x => Text.ofString "# " ++ x ++ Text.ofString "\n" := by
    have turned := flatMap_feed "# " xs
    simpa only [feed_then_sign, List.append_assoc] using turned
  rw [turned]
  exact skipped_feed.append (.flatMap hidden)

-- The two names and the first range have breaks of their own, all that follows gets one before it.
theorem hidden_outputDifference (expected actual : Text) :
    Hidden (outputDifference expected actual) := by
  unfold outputDifference
  dsimp only
  rcases Diff.unified_cases "expected" "actual" (keptLines CodePoint.seen expected)
    (keptLines CodePoint.seen actual) with none | ⟨h, rest, same, shown⟩
  · rw [none]
    exact skipped_of_tokenLines (by decide +kernel) (by decide +kernel)
  · obtain ⟨w, unbroken, header⟩ := Diff.hunk_header h
    have hidden : ∀ x ∈ rest, Hidden x := by
      intro x member
      obtain ⟨g, hunk, inside⟩ := shown x member
      exact hidden_hunk_text hunk x inside
    have names : Skipped (Text.ofString "# " ++ Text.ofString "STDOUT DIFF:\n# " ++
        (Text.ofString "--- " ++ Text.ofString "expected" ++ Text.ofString "\n") ++
          Text.ofString "# " ++
        (Text.ofString "+++ " ++ Text.ofString "actual" ++ Text.ofString "\n")) :=
      skipped_of_tokenLines (by decide +kernel) (by decide +kernel)
    have heading := names.append (hidden_of_unbroken unbroken)
    have whole := (heading.append (skipped_further hidden)).append skipped_feed
    rw [same, header]
    simpa only [Hidden, List.take, List.drop, List.intercalate_cons_cons,
      List.intercalate_singleton, List.append_assoc] using whole

theorem hidden_outputLog (noDifference : Bool) (expected actual : Option Text) :
    Hidden (outputLog noDifference expected actual) := by
  unfold outputLog
  dsimp only
  split
  · exact hidden_bothOutputs _ _
  · exact hidden_outputDifference _ _

namespace Report

theorem replace_single (c : CodePoint) (new s : Text) :
    Text.replace [c] new s = s.flatMap fun d => if c = d then new else [d] := by
  induction s with
  | nil => rw [Text.replace, List.flatMap_nil]
  | cons d s ih =>
    rw [Text.replace, List.flatMap_cons, ← ih]
    by_cases same : c = d <;> simp [same]

theorem commented_eq (s : Text) :
    commented s = s.flatMap fun d => if .char '\n' = d then Text.ofString "\n# " else [d] :=
  replace_single (.char '\n') "\n# " s

theorem commented_cons_feed (s : Text) :
    commented (.char '\n' :: s) = Text.ofString "\n# " ++ commented s := by
  rw [commented_eq, commented_eq, List.flatMap_cons, if_pos rfl]

theorem commented_cons_of_ne {c : CodePoint} (other : c ≠ .char '\n') (s : Text) :
    commented (c :: s) = c :: commented s := by
  rw [commented_eq, commented_eq, List.flatMap_cons, if_neg other.symm]
  rfl

-- What stands before the text in the same comment grows until a line feed opens another one.
theorem hidden_commented_behind {w : Text} (unbroken : Unbroken w) (feeds : FeedsOnly s) :
    Hidden (w ++ commented s) := by
  induction s generalizing w with
  | nil =>
    have empty : commented [] = [] := by rw [commented, Text.replace]
    rw [empty, List.append_nil]
    exact hidden_of_unbroken unbroken
  | cons c s ih =>
    have later : FeedsOnly s := fun d member => feeds d (List.mem_cons_of_mem c member)
    by_cases feed : c = .char '\n'
    · subst feed
      have opened : Hidden ([] ++ commented s) := ih unbroken_nil later
      have whole := (hidden_of_unbroken unbroken).append opened
      rw [commented_cons_feed, feed_then_sign]
      simpa only [Hidden, List.append_assoc, List.nil_append] using whole
    · have inside : isLineBreak c.seen = false := by
        rw [← Bool.not_eq_true]
        exact fun ends => feed (feeds c List.mem_cons_self ends)
      have longer : Unbroken (w ++ [c]) := unbroken.append (by simpa [Unbroken] using inside)
      rw [commented_cons_of_ne feed]
      simpa only [List.append_assoc, List.singleton_append] using ih longer later

theorem hidden_commented (feeds : FeedsOnly s) : Hidden (commented s) :=
  hidden_commented_behind unbroken_nil feeds

theorem unbroken_rightAligned (width : Nat) (unbroken : Unbroken s) :
    Unbroken (Text.rightAligned width s) :=
  (unbroken_replicate _ (by decide)).append unbroken

theorem skipped_joined (each : ∀ x ∈ xs, Skipped (x ++ Text.ofString "\n")) :
    Skipped (List.intercalate (Text.ofString "\n") xs ++ Text.ofString "\n") := by
  cases xs with
  | nil => exact skipped_feed
  | cons x xs =>
    have parted := intercalate_feed [] x xs
    simp only [List.nil_append, List.append_nil] at parted
    rw [parted]
    exact .flatMap each

theorem skipped_source (code : Text) : Skipped (source code ++ Text.ofString "\n") := by
  refine skipped_joined fun x member => ?_
  obtain ⟨⟨l, i⟩, inside, rfl⟩ := List.mem_map.mp member
  have number : Unbroken (Text.rightAligned 3 (Text.ofString (toString " " ++ toString i))) :=
    unbroken_rightAligned 3 (unbroken_joined (by decide) (unbroken_nat i))
  have text : Unbroken l := unbroken_pointLines code l (List.fst_mem_of_mem_zipIdx inside)
  have hidden :=
    hidden_of_unbroken ((number.append (t := Text.ofString ": ") (by decide)).append text)
  simpa only [Hidden, List.append_assoc] using hidden

/-- One line of the listing. -/
def listed (count : Nat) (entry : Text × Nat) : Text :=
  Text.padded 80 entry.1 ++ Text.ofString "# " ++ Text.rightAligned 5
    (Text.ofString (toString entry.2)) ++
    Text.ofString (toString "/" ++ toString count)

theorem unbroken_listed (count : Nat) {entry : Text × Nat} (unbroken : Unbroken entry.1) :
    Unbroken (listed count entry) := by
  have number := unbroken_rightAligned 5 (unbroken_nat entry.2)
  have total : Unbroken (Text.ofString (toString "/" ++ toString count)) :=
    unbroken_joined (by decide) (unbroken_nat count)
  have wide : Unbroken (Text.padded 80 entry.1) :=
    unbroken.append (unbroken_replicate _ (by decide))
  exact ((wide.append (by decide)).append number).append total

theorem tokens_listed (count : Nat) (entry : Text × Nat) :
    tokens (listed count entry).seen = tokens entry.1.seen := by
  have blank : ∀ c ∈ List.replicate (80 - entry.1.length) ' ', isBlank c = true := by
    intro c member
    rw [List.eq_of_mem_replicate member]
    decide
  have parts : (listed count entry).seen = entry.1.seen ++
    (List.replicate (80 - entry.1.length) ' ' ++
      '#' :: (' ' :: (Text.rightAligned 5 (Text.ofString (toString entry.2)) ++
        Text.ofString (toString "/" ++ toString count)).seen)) := by
    have sign : List.map CodePoint.seen (Text.ofString "# ") = ['#', ' '] := by decide
    simp only [listed, Text.padded, Text.seen, List.map_append, List.map_replicate,
      List.append_assoc, sign, CodePoint.seen, List.cons_append, List.nil_append]
  rw [parts, tokens_commented blank]

theorem tokenLines_joined (each : ∀ x ∈ xs, Unbroken x) :
    tokenLines (Text.seen (List.intercalate (Text.ofString "\n") xs)) =
      (xs.map fun x => tokens x.seen).filter (!·.isEmpty) := by
  induction xs with
  | nil => rfl
  | cons x xs ih =>
    have first := tokenLines_unbroken (each x List.mem_cons_self).chars
    have later := ih fun y member => each y (List.mem_cons_of_mem x member)
    cases xs with
    | nil =>
      rw [List.intercalate_singleton]
      exact first
    | cons y ys =>
      have feed (s : Text) : (x ++ Text.ofString "\n" ++ s).seen = x.seen ++ '\n' :: s.seen := by
        simp only [Text.seen, List.map_append, List.append_assoc]
        rfl
      rw [List.intercalate_cons_cons, feed, tokenLines_append_break (by decide), later, first,
        ← List.filter_append]
      rfl

theorem tokenLines_seen (program : Text) :
    tokenLines program.seen = ((pointLines program).map fun l => tokens l.seen).filter
    (!·.isEmpty) := by
  rw [tokenLines, lines_seen, List.map_map]
  rfl

/-- The lines that are left out of the listing have no words. -/
theorem tokenLines_kept (program : Text) (count : Nat) :
    ((((pointLines program).zipIdx 1).filter fun e => !e.1.isEmpty).map fun e =>
      tokens (listed count e).seen).filter (!·.isEmpty) = tokenLines program.seen := by
  have numbered : pointLines program = ((pointLines program).zipIdx 1).map Prod.fst :=
    (List.zipIdx_map_fst 1 _).symm
  have worded (e : Text × Nat) :
      (!(tokens e.1.seen).isEmpty && !e.1.isEmpty) = !(tokens e.1.seen).isEmpty := by
    obtain ⟨l, n⟩ := e
    cases l with
    | nil => rfl
    | cons c l => exact Bool.and_true _
  simp only [tokens_listed]
  rw [tokenLines_seen]
  conv => rhs; rw [numbered]
  simp only [List.map_map, List.filter_map, List.filter_filter, Function.comp_def, worded]

theorem tokenLines_listing (program : Text) :
    tokenLines (listing program).seen = tokenLines program.seen := by
  have unbroken : ∀ x ∈ (((pointLines program).zipIdx 1).filter fun e => !e.1.isEmpty).map
      (listed (pointLines program).length), Unbroken x := by
    intro x member
    obtain ⟨entry, kept, rfl⟩ := List.mem_map.mp member
    have inside := List.fst_mem_of_mem_zipIdx (List.mem_filter.mp kept).1
    exact unbroken_listed _ (unbroken_pointLines program entry.1 inside)
  have joined := tokenLines_joined unbroken
  rw [List.map_map] at joined
  have whole := joined.trans (tokenLines_kept program _)
  rw [← whole]
  have shown : listing program = if List.isEmpty (List.intercalate (Text.ofString "\n")
      ((((pointLines program).zipIdx 1).filter fun e => !e.1.isEmpty).map
        (listed (pointLines program).length))) then Text.ofString "# ---" else _ := rfl
  rw [shown]
  split
  · rename_i empty
    rw [List.isEmpty_iff.mp empty]
    decide +kernel
  · rfl

/-- What a test and its report must be like for the log to be code: what is written on one line has
no break, and the other texts break their lines with line feeds. -/
structure Plain (now : String) (extensions : List String) (r : Report) : Prop where
  now : Unbroken now
  directory : Unbroken (Files.baseName r.test.directory)
  name : Unbroken r.test.name
  info : Unbroken r.test.info.text
  required : ∀ s, Value.str s ∈ r.test.extensions → Unbroken s
  activated : ∀ e ∈ extensions, Unbroken e
  stdin : ∀ s, r.test.stdin = .str s → FeedsOnly s
  compilerStderr : FeedsOnly (r.compilerStderr.getD [])
  interpreterStderr : FeedsOnly (r.interpreterStderr.getD [])

theorem mem_extensionNames {vs : List Value} {names : List Text}
    (read : extensionNames vs = .ok names) (member : s ∈ names) : Value.str s ∈ vs := by
  unfold extensionNames at read
  generalize 0 = start at read
  induction vs generalizing names start with
  | nil =>
    cases read
    cases member
  | cons v vs ih =>
    rw [List.zipIdx_cons, List.mapM_cons] at read
    obtain ⟨name, first, read⟩ := bind_eq_ok read
    obtain ⟨others, rest, read⟩ := bind_eq_ok read
    cases read
    rcases List.mem_cons.mp member with rfl | later
    · cases v with
      | str t =>
        cases first
        exact List.mem_cons_self
      | _ => cases first
    · exact List.mem_cons_of_mem v (ih later (start + 1) rest)

/-- The lines of the head between the time and the empty line at its end. -/
def headLines (extensions : List String) (required : List Text) (output stdin : Text) (r : Report) :
    List Text :=
  ["SECTION: " ++ Files.baseName r.test.directory,
    "TEST: " ++ r.test.name,
    "INFO: " ++ r.test.info.text,
    "REQUIRED EXTENSIONS: " ++ List.intercalate ", " required,
    "ACTIVATED EXTENSIONS: " ++ String.intercalate ", " extensions,
    "STATE: " ++ (if r.success = some true then "SUCCESS" else "FAIL"),
    "",
    "COMPILER STDERR:",
    commented (r.compilerStderr.getD []),
    "INTERPRETER STDERR:",
    commented (r.interpreterStderr.getD []),
    output,
    "INTERPRETER STDIN: ",
    commented stdin ++ "\n#",
    "EXPECTED COMPILER EXIT CODE: " ++ toString r.test.compilerExit,
    "CURRENT COMPILER EXIT CODE: " ++ exitText r.compilerExit,
    "EXPECTED INTERPRETER EXIT CODE: " ++ toString r.test.interpreterExit,
    "CURRENT INTERPRETER EXIT CODE: " ++ exitText r.interpreterExit,
    "PRICE: " ++ r.priceText,
    "GROOT: " ++ r.referenceText]

variable {now : String} {extensions : List String} {r : Report} {noDifference : Bool} {text : Text}

theorem head_ok (made : r.head now noDifference extensions = .ok text) :
    ∃ required stdout stdin, extensionNames r.test.extensions = .ok required ∧
      textFor "replace" r.test.stdin = .ok stdin ∧
      text = List.intercalate (Text.ofString "\n# ") ((Text.ofString "# " ++ Text.ofString now) ::
        (headLines extensions required (outputLog noDifference (some stdout) r.interpreterStdout)
          stdin r ++
          [Text.ofString "\n"])) := by
  unfold head at made
  obtain ⟨required, names, made⟩ := bind_eq_ok made
  obtain ⟨stdout, -, made⟩ := bind_eq_ok made
  obtain ⟨output, compared, made⟩ := bind_eq_ok made
  obtain ⟨stdin, input, made⟩ := bind_eq_ok made
  cases compared
  cases made
  exact ⟨required, stdout, stdin, names, input, rfl⟩

theorem unbroken_exitText (code : Option Int) : Unbroken (exitText code) := by
  cases code with
  | none => decide
  | some n => exact unbroken_int n

theorem unbroken_referenceText (r : Report) : Unbroken r.referenceText := by
  unfold referenceText
  split
  · exact unbroken_int _
  · decide

theorem unbroken_priceText (r : Report) : Unbroken r.priceText := by
  unfold priceText
  split
  · rename_i m _
    have total := unbroken_joined (unbroken_nat m.price) (v := toString " (") (by decide)
    have instructions := unbroken_joined total (unbroken_nat m.instructionPrice)
    have plus := unbroken_joined instructions (v := toString "+") (by decide)
    exact unbroken_joined (unbroken_joined plus (unbroken_nat m.operandPrice)) (by decide)
  · decide

theorem feedsOnly_stdin {stdin : Text} (plain : ∀ s, r.test.stdin = .str s → FeedsOnly s)
    (read : textFor "replace" r.test.stdin = .ok stdin) : FeedsOnly stdin := by
  unfold textFor at read
  split at read
  · rename_i s given
    cases read
    exact plain _ given
  · split at read
    · cases read
    · cases read
      nofun

theorem hidden_headLines (plain : r.Plain now extensions) {required : List Text}
    {output stdin : Text} (names : ∀ s ∈ required, Unbroken s) (hidden : Hidden output)
    (feeds : FeedsOnly stdin) :
    ∀ x ∈ headLines extensions required output stdin r, Hidden x := by
  have labelled (u : String) (label : Unbroken u) {s : Text} (unbroken : Unbroken s) :
      Hidden (u ++ s) :=
    hidden_of_unbroken (label.append unbroken)
  have activated : Unbroken (Text.ofString (String.intercalate ", " extensions)) := by
    rw [ofString_intercalate]
    refine unbroken_intercalate (by decide) fun x member => ?_
    obtain ⟨e, inside, rfl⟩ := List.mem_map.mp member
    exact plain.activated e inside
  have state : Unbroken (Text.ofString (if r.success = some true then "SUCCESS" else "FAIL")) := by
    split <;> decide
  have input : Hidden (commented stdin ++ Text.ofString "\n#") := by
    have sign : Skipped (Text.ofString "#" ++ Text.ofString "\n") :=
      skipped_of_tokenLines (by decide) (by decide)
    have whole := (hidden_commented feeds).append sign
    have split : Text.ofString "\n#" = Text.ofString "\n" ++ Text.ofString "#" := by decide
    rw [split]
    simpa only [Hidden, List.append_assoc] using whole
  simp only [headLines, List.forall_mem_cons]
  refine ⟨labelled _ (by decide) plain.directory, labelled _ (by decide) plain.name,
    labelled _ (by decide) plain.info,
    labelled _ (by decide) (unbroken_intercalate (by decide) names),
    labelled _ (by decide) activated, labelled _ (by decide) state, hidden_of_unbroken (by decide),
    hidden_of_unbroken (by decide), hidden_commented plain.compilerStderr,
    hidden_of_unbroken (by decide), hidden_commented plain.interpreterStderr, hidden,
    hidden_of_unbroken (by decide), input, labelled _ (by decide) (unbroken_int _),
    labelled _ (by decide) (unbroken_exitText _), labelled _ (by decide) (unbroken_int _),
    labelled _ (by decide) (unbroken_exitText _), labelled _ (by decide) (unbroken_priceText r),
    labelled _ (by decide) (unbroken_referenceText r), ?_⟩
  nofun

/-- The head of a log is comments, each to the end of its line. -/
theorem skipped_head (plain : r.Plain now extensions)
    (made : r.head now noDifference extensions = .ok text) : Skipped text := by
  obtain ⟨required, stdout, stdin, names, input, rfl⟩ := head_ok made
  have hidden :=
    hidden_headLines plain (fun s member => plain.required s (mem_extensionNames names member))
    (hidden_outputLog noDifference (some stdout) r.interpreterStdout)
      (feedsOnly_stdin plain.stdin input)
  generalize headLines extensions required _ stdin r = rest at hidden ⊢
  have regrouped : List.intercalate (Text.ofString "\n# ")
    ((Text.ofString "# " ++ Text.ofString now) ::
      (rest ++ [Text.ofString "\n"])) =
      (Text.ofString now :: (rest ++ [[]])).flatMap fun x =>
        Text.ofString "# " ++ x ++ Text.ofString "\n" := by
    rw [← intercalate_feed, feed_then_sign]
    simp only [intercalate_cons, List.flatMap_append, List.flatMap_cons, List.flatMap_nil,
      List.append_nil, List.append_assoc]
  rw [regrouped]
  refine .flatMap fun x member => ?_
  rcases List.mem_cons.mp member with rfl | later
  · exact hidden_of_unbroken plain.now
  · rcases List.mem_append.mp later with inside | last
    · exact hidden x inside
    · rw [List.mem_singleton.mp last]
      exact hidden_of_unbroken (by decide)

/-- All pieces of a log in a row load what the compiled program loads. -/
theorem tokenLines_pieces (plain : r.Plain now extensions) {pieces : List Text}
    (written : r.pieces now noDifference extensions = (pieces, none)) :
    tokenLines (Text.seen pieces.flatten) = tokenLines (r.compilerStdout.getD []).seen := by
  unfold Report.pieces at written
  split at written
  · cases written
  · rename_i head code made _
    cases written
    have opening := skipped_head plain made
    have middle := skipped_source code
    have divided : Skipped divider := skipped_of_tokenLines (by decide +kernel) (by decide +kernel)
    have closing : ∀ c ∈ (Text.ofString "\n\n").seen, isLineBreak c = true :=
      breaks_seen (by decide)
    have whole := opening.append (middle.before divided (by decide +kernel))
    have parts (shown last : Text) : [head, source code, divider, shown, last].flatten =
        (head ++ (source code ++ divider)) ++ (shown ++ last) := by
      simp only [List.flatten_cons, List.flatten_nil, List.append_nil, List.append_assoc]
    rw [parts, seen_append, whole, seen_append, tokenLines_append_breaks closing,
      tokenLines_listing]
  · cases written

end Report
end Bench
end TacBench
