import Mathlib.Data.List.Basic
import TacBench.Editor.Highlighter
import TacBench.Proofs.Backtracking
import TacBench.Proofs.EscapedPatterns

/-! Colouring a line comes to an end, with every engine that finds the first match. Every pattern of
the colour table takes at least one character, and a pattern whose groups have formats of their own
has as many groups and ends with the last of them. So each match leads further on in the line. The
same holds for every text that is searched for. -/
namespace TacBench.Editor

open Pattern

/-- A number of places behind which a character of the line begins, or the line ends. -/
def IsPlace (a : Alphabet) (line : List Char) (n : Nat) : Prop :=
  ∃ c : Cursor, c.text = line ∧ c.position a = n

theorem isPlace_zero (a : Alphabet) (line : List Char) : IsPlace a line 0 :=
  ⟨⟨[], line, []⟩, rfl, rfl⟩

/-- The pattern takes something. If there are formats for its groups, it has as many groups as
formats, all of them take part, and the last one ends with the match. -/
def Suits (formats : Option Nat) (p : Pattern) : Prop :=
  0 < p.minWidth ∧ ∀ n ∈ formats, 0 < n ∧ p.closing? = some n ∧ (∀ k ∈ p.groupNumbers, k ≤ n) ∧
    ∀ k ∈ List.range' 1 n, k ∈ p.certainGroups

instance (formats : Option Nat) (p : Pattern) : Decidable (Suits formats p) :=
  inferInstanceAs (Decidable (_ ∧ _))

/-- The number of formats if they are for the groups of a pattern. -/
def Painting.formats? : Painting → Option Nat
  | .whole _ => none
  | .byGroup fs => some fs.length

def Coloring.formats? : Coloring → Option Nat
  | .whole _ => none
  | .byGroup colors => some colors.length

theorem formats?_painting (font : Font) (c : Coloring) :
    (Highlighter.painting font c).formats? = c.formats? := by
  cases c with
  | whole color => rfl
  | byGroup colors => exact congrArg some (List.length_map _)

namespace PaintRule

variable {e : Engine} {r : PaintRule} {line : List Char} {start : Nat} {c : Cursor}
  {m : Pattern.Match} {stretches : List Stretch} {f : Format}

def Sound (r : PaintRule) : Prop := Suits r.painting.formats? r.pattern

/-- The loop of a rule over a line from a place on: it is over when nothing is found any more, and
otherwise goes on where the match leads. -/
inductive Painted (e : Engine) (r : PaintRule) (line : List Char) : Nat → List Stretch → Prop
  | done {start : Nat} (finished : e.search? r.pattern line start = none) :
      Painted e r line start []
  | again {start next : Nat} {m : Pattern.Match} {stretches more : List Stretch}
      (found : e.search? r.pattern line start = some m)
      (applied : apply r.painting start m = .ok (stretches, next))
      (later : Painted e r line next more) :
      Painted e r line start (stretches ++ more)

/-- A match that a sound rule finds from a place on. It takes something of the line and ends at a
place of it, and there are as many formats as groups. -/
structure Hit (e : Engine) (r : PaintRule) (line : List Char) (start : Nat) (m : Pattern.Match) :
    Prop where
  start : start ≤ m.span.start
  width : m.span.start < m.span.stop
  stop : m.span.stop ≤ e.alphabet.size line
  place : IsPlace e.alphabet line m.span.stop
  groups : ∀ fs, r.painting = .byGroup fs → fs.length = m.lastGroup ∧ 0 < fs.length ∧
    (∀ k ∈ List.range' 1 fs.length, (m.group? k).isSome = true) ∧
    ∃ first, m.group? fs.length = some ⟨first, m.span.stop⟩

theorem Sound.hit (sound : r.Sound) (first : e.FindsFirst)
    (found : e.search? r.pattern c.text (c.position e.alphabet) = some m) :
    Hit e r c.text (c.position e.alphabet) m := by
  obtain ⟨b, d, text, behind, isFrom, -⟩ := first.found found
  obtain ⟨width, stop⟩ := isFrom.within
  refine ⟨?_, Nat.lt_of_lt_of_le (Nat.lt_add_of_pos_right sound.1) width, text ▸ stop,
    ⟨d, ?_, ?_⟩, ?_⟩
  · rw [isFrom.span]
    exact behind
  · exact isFrom.leads.moves.text.trans text
  · rw [isFrom.span]
  · intro fs painting
    obtain ⟨some, closes, highest, certain⟩ := sound.2 fs.length (by rw [painting]; rfl)
    obtain ⟨last, closed⟩ := isFrom.lastGroup closes highest
    exact ⟨last.symm, some, fun k member => isFrom.certain (certain k member), closed⟩

/-- A match leads to its end. -/
theorem Hit.apply (found : Hit e r line start m) :
    ∃ stretches, PaintRule.apply r.painting start m = .ok (stretches, m.span.stop) := by
  cases painting : r.painting with
  | whole f => exact ⟨_, rfl⟩
  | byGroup fs =>
    obtain ⟨count, some, -, first, closed⟩ := found.groups fs painting
    have last : ((List.range' 1 fs.length).map fun n => (m.group? n).getD ⟨0, 0⟩).getLast? =
        .some ⟨first, m.span.stop⟩ := by
      obtain ⟨n, length⟩ := Nat.exists_eq_add_of_lt some
      rw [Nat.zero_add] at length
      rw [length, Nat.add_comm] at closed
      rw [length, List.range'_1_concat, List.map_append, List.map_singleton,
        List.getLast?_concat, closed]
      rfl
    rw [PaintRule.apply, if_neg (not_not_intro count)]
    dsimp only
    rw [last]
    exact ⟨_, rfl⟩

/-- The loop of a sound rule comes to its end. -/
theorem Sound.paint (sound : r.Sound) (first : e.FindsFirst) (line : List Char) (start : Nat)
    (place : IsPlace e.alphabet line start) :
    (r.paint e line start).2 = none ∧ Painted e r line start (r.paint e line start).1 := by
  fun_induction PaintRule.paint e r line start with
  | case1 start finished => exact ⟨rfl, .done finished⟩
  | case2 start m found f fault =>
    obtain ⟨c, rfl, rfl⟩ := place
    obtain ⟨stretches, applied⟩ := (sound.hit first found).apply
    cases fault.symm.trans applied
  | case3 start m found stretches next applied ahead more fault rest ih =>
    obtain ⟨c, rfl, rfl⟩ := place
    have matched := sound.hit first found
    obtain ⟨_, leads⟩ := matched.apply
    cases applied.symm.trans leads
    have later := ih matched.place
    rw [rest] at later
    exact ⟨later.1, .again found applied later.2⟩
  | case4 start m found stretches next applied stuck =>
    -- A match that takes something cannot lead back to where it has been looked for.
    obtain ⟨c, rfl, rfl⟩ := place
    have matched := sound.hit first found
    obtain ⟨_, leads⟩ := matched.apply
    cases applied.symm.trans leads
    have span := And.intro matched.start (And.intro matched.width matched.stop)
    exact absurd (by omega) stuck

/-- What a rule with one format paints takes something each time, and always behind what it has
painted before. -/
theorem Painted.ordered (painted : Painted e r line start stretches) (sound : r.Sound)
    (first : e.FindsFirst) (place : IsPlace e.alphabet line start) (whole : r.painting = .whole f) :
    (∀ s ∈ stretches, start ≤ s.span.start ∧ s.span.start < s.span.stop ∧
      s.span.stop ≤ e.alphabet.size line) ∧
    stretches.Pairwise fun s t => s.span.stop ≤ t.span.start := by
  induction painted with
  | done => exact ⟨List.forall_mem_nil _, .nil⟩
  | again found applied later ih =>
    obtain ⟨c, rfl, rfl⟩ := place
    have matched := sound.hit first found
    rw [whole] at applied
    cases applied
    obtain ⟨inside, ordered⟩ := ih matched.place
    have here := matched.start
    have some := matched.width
    refine ⟨List.forall_mem_cons.mpr ⟨⟨here, some, matched.stop⟩, fun s behind => ?_⟩,
      .cons (fun s behind => (inside s behind).1) ordered⟩
    have further := inside s behind
    omega

end PaintRule

variable {e : Engine} {rules : List PaintRule}

theorem paintLine_of_sound (first : e.FindsFirst) (sound : ∀ r ∈ rules, r.Sound)
    (line : List Char) :
    paintLine e line rules = (rules.flatMap fun r => (r.paint e line 0).1, none) := by
  induction rules with
  | nil => rfl
  | cons r rules ih =>
    have ended := ((sound r List.mem_cons_self).paint first line 0 (isPlace_zero _ line)).1
    have painted : r.paint e line 0 = ((r.paint e line 0).1, none) := Prod.ext rfl ended
    rw [paintLine, painted, ih fun s later => sound s (List.mem_cons_of_mem r later)]
    rfl

theorem paintLines_of_sound (first : e.FindsFirst) (sound : ∀ r ∈ rules, r.Sound)
    (lines : List (List Char × Nat)) : (paintLines e rules lines).2 = none := by
  induction lines with
  | nil => rfl
  | cons entry lines ih =>
    obtain ⟨line, n⟩ := entry
    rw [paintLines, paintLine_of_sound first sound]
    exact ih

theorem sound_literal {text : String} (some : text ≠ "") (format : Format) :
    PaintRule.Sound ⟨.literal text.toList, .whole format⟩ := by
  refine ⟨?_, by simp [Painting.formats?]⟩
  rw [minWidth_literal]
  exact List.length_pos_iff.mpr (mt String.toList_eq_nil_iff.mp some)

namespace ColorRule

/-- All patterns of a rule can be read and suit its colours. -/
def Proper (c : ColorRule) : Prop :=
  ∀ t ∈ c.patterns, ∃ p, Pattern.ofText? t = some p ∧ Suits c.coloring.formats? p

/-- Whether a pattern can be read and suits the colours. -/
def isProper (c : Coloring) (text : String) : Bool :=
  (Pattern.ofText? text).any fun p => Suits c.formats? p

theorem proper_of_all {c : ColorRule} (check : c.patterns.all (isProper c.coloring) = true) :
    c.Proper := by
  intro t member
  have proper := List.all_eq_true.mp check t member
  unfold isProper at proper
  cases read : Pattern.ofText? t with
  | none =>
    rw [read] at proper
    cases proper
  | some p =>
    rw [read] at proper
    exact ⟨p, rfl, of_decide_eq_true proper⟩

-- The order of the names is of no account, so that they need not be sorted here.
theorem proper_commands : commands.Proper := by
  refine proper_of_all (List.all_eq_true.mpr fun t member => ?_)
  obtain ⟨name, listed, rfl⟩ := List.mem_map.mp member
  rw [Opcode.sortedNames, List.mem_mergeSort] at listed
  have check : ((Opcode.all.map Opcode.name).all fun name =>
      isProper commands.coloring ("(?i)" ++ name)) = true := by
    decide +kernel
  exact List.all_eq_true.mp check name listed

theorem proper_of_mem_all {c : ColorRule} (member : c ∈ all) : c.Proper := by
  have others : ∀ c ∈ [frames, variableNames, jumps, constants, comments, nyan],
      c.patterns.all (isProper c.coloring) = true := List.all_eq_true.mp (by decide +kernel)
  rcases List.mem_cons.mp member with rfl | other
  · exact proper_commands
  · exact proper_of_all (others c other)

end ColorRule

namespace Highlighter

variable {e : Engine} {font : Font} {h : Highlighter} {c : ColorRule} {r : PaintRule}

/-- The highlighter with the rules of the whole colour table. -/
def withTable (font : Font) (h : Highlighter) : Highlighter :=
  ColorRule.all.foldl (fun h c => h.add font c) h

/-- The rules that a rule of the table brings, one for each pattern. -/
def paintRules (font : Font) (c : ColorRule) : List PaintRule :=
  (c.patterns.filterMap Pattern.ofText?).map fun p => ⟨p, painting font c.coloring⟩

theorem rules_foldl_add (font : Font) (cs : List ColorRule) (h : Highlighter) :
    (cs.foldl (fun h c => h.add font c) h).rules = h.rules ++ cs.flatMap (paintRules font) := by
  induction cs generalizing h with
  | nil => exact (List.append_nil _).symm
  | cons c cs ih =>
    rw [List.foldl_cons, ih, List.flatMap_cons, ← List.append_assoc]
    rfl

theorem font_withTable (font : Font) (h : Highlighter) : (h.withTable font).font = some font := rfl

theorem sound_of_mem_paintRules (proper : c.Proper) (member : r ∈ paintRules font c) : r.Sound := by
  obtain ⟨p, read, rfl⟩ := List.mem_map.mp member
  obtain ⟨t, listed, read⟩ := List.mem_filterMap.mp read
  obtain ⟨q, same, suits⟩ := proper t listed
  cases read.symm.trans same
  rwa [PaintRule.Sound, formats?_painting]

/-- No pattern is left out, and each gets the formats of its rule. -/
theorem map_paintRules (proper : c.Proper) :
    (paintRules font c).map (fun r => (some r.pattern, r.painting)) =
      c.patterns.map fun t => (Pattern.ofText? t, painting font c.coloring) := by
  obtain ⟨texts, coloring⟩ := c
  rw [paintRules, List.map_map]
  induction texts with
  | nil => rfl
  | cons t texts ih =>
    obtain ⟨p, read, -⟩ := proper t List.mem_cons_self
    have rest := ih fun u later => proper u (List.mem_cons_of_mem t later)
    dsimp only at rest ⊢
    rw [List.filterMap_cons_some read, List.map_cons, List.map_cons, read, rest]
    rfl

/-- The rule of a search; there is none for an empty text. -/
def searchRule? (font : Font) (text : String) : Option PaintRule :=
  if text.isEmpty then none
  else some ⟨.literal text.toList, .whole { background := some searchColor, font }⟩

theorem pattern_of_mem_searchRule? {text : String} (member : r ∈ searchRule? font text) :
    r.pattern = .literal text.toList := by
  unfold searchRule? at member
  split at member
  · cases member
  · cases member
    rfl

theorem sound_of_mem_searchRule? {text : String} (member : r ∈ (searchRule? font text).toList) :
    r.Sound := by
  unfold searchRule? at member
  split at member
  · cases member
  · rename_i filled
    obtain rfl := List.mem_singleton.mp member
    exact sound_literal (by simpa using filled) _

/-- A search changes the search rule only and paints without a fault. -/
theorem setSearch_eq (first : e.FindsFirst) (fonted : h.font = some font)
    (sound : ∀ r ∈ h.rules, r.Sound) (text : String) :
    (h.setSearch e text).2.1 = none ∧ (h.setSearch e text).2.2.rules = h.rules ∧
      (h.setSearch e text).2.2.search = searchRule? font text := by
  have all : ∀ r ∈ h.rules ++ (searchRule? font text).toList, r.Sound := fun r member =>
    (List.mem_append.mp member).elim (sound r) sound_of_mem_searchRule?
  have ended : (rehighlight e { h with search := searchRule? font text }).2 = none :=
    paintLines_of_sound first all _
  unfold setSearch
  rw [fonted]
  dsimp only
  rw [← searchRule?]
  split
  · rename_i painted f fault
    rw [fonted, fault] at ended
    cases ended
  · exact ⟨rfl, rfl, rfl⟩

/-- The whole colour table is installed, each pattern with the formats of its rule, and any text is
searched for, by a pattern that matches like the escaped text. With an engine that finds the first
match the document is then painted without a fault. On every line each rule comes to an end: the
line is painted by all rules without a fault, and by each of them in a finite loop. The formats of a
rule are as many as the groups of its matches, and all these groups take part. What a rule with one
format paints takes something of the line each time, and always behind what it has painted
before. -/
theorem highlighting_ends (e : Engine) (first : e.FindsFirst) (font : Font)
    (document search : String) (line : List Char) :
    let searched := (withTable font { text := document }).setSearch e search
    let h := searched.2.2
    let rules := h.rules ++ h.search.toList
    h.rules.map (fun r => (some r.pattern, r.painting)) = ColorRule.all.flatMap (fun c =>
      c.patterns.map fun t => (Pattern.ofText? t, painting font c.coloring)) ∧
    h.search = searchRule? font search ∧
    (∀ r ∈ h.search, ∃ p,
      Pattern.ofText? ("(?i)" ++ String.ofList (CurrentWord.escape search.toList)) = some p ∧
      ∀ a c d, Pattern.Leads a p c d ↔ Pattern.Leads a r.pattern c d) ∧
    searched.2.1 = none ∧
    paintLine e line rules = (rules.flatMap fun r => (r.paint e line 0).1, none) ∧
    ∀ r ∈ rules, r.Painted e line 0 (r.paint e line 0).1 ∧
      (∀ (c : Cursor) m fs, c.text = line →
        e.search? r.pattern line (c.position e.alphabet) = some m →
        r.painting = .byGroup fs →
        fs.length = m.lastGroup ∧ ∀ k ∈ List.range' 1 fs.length, (m.group? k).isSome = true) ∧
      ∀ f, r.painting = .whole f →
        (∀ s ∈ (r.paint e line 0).1, s.span.start < s.span.stop ∧
          s.span.stop ≤ e.alphabet.size line) ∧
        (r.paint e line 0).1.Pairwise fun s t => s.span.stop ≤ t.span.start := by
  intro searched h rules
  have table : (withTable font { text := document }).rules =
      ColorRule.all.flatMap (paintRules font) :=
    rules_foldl_add font ColorRule.all _
  have installed : ∀ r ∈ (withTable font { text := document }).rules, r.Sound := by
    intro r member
    rw [table] at member
    obtain ⟨c, listed, inside⟩ := List.mem_flatMap.mp member
    exact sound_of_mem_paintRules (ColorRule.proper_of_mem_all listed) inside
  obtain ⟨ended, kept, found⟩ := setSearch_eq first (font_withTable font _) installed search
  have sound : ∀ r ∈ rules, r.Sound := by
    intro r member
    rcases List.mem_append.mp member with old | new
    · exact installed r (kept ▸ old)
    · exact sound_of_mem_searchRule? (found ▸ new)
  refine ⟨?_, found, fun r new => ?_, ended, paintLine_of_sound first sound line,
    fun r member => ?_⟩
  · rw [kept, table, List.map_flatMap]
    exact List.flatMap_congr fun c listed => map_paintRules (ColorRule.proper_of_mem_all listed)
  · obtain ⟨p, read, same⟩ := ofText?_escape search.toList
    rw [found] at new
    exact ⟨p, read, (pattern_of_mem_searchRule? new).symm ▸ same⟩
  · have painted := ((sound r member).paint first line 0 (isPlace_zero _ line)).2
    refine ⟨painted, fun c m fs text matched groups => ?_, fun f whole => ?_⟩
    · subst text
      obtain ⟨count, -, all, -⟩ := ((sound r member).hit first matched).groups fs groups
      exact ⟨count, all⟩
    · obtain ⟨inside, ordered⟩ := painted.ordered (sound r member) first (isPlace_zero _ line) whole
      exact ⟨fun s among => (inside s among).2, ordered⟩

/-- Letters, digits and blanks of plain text only, with two places for a character beyond the first
plane. -/
def plainAlphabet : Alphabet where
  units x := if x.toNat < 0x10000 then 1 else 2
  units_pos x := by split <;> decide
  isWordChar x := x.isAlphanum || x == '_'
  isBlank x := x == ' ' || x == '\t' || x == '\n' || x == '\x0b' || x == '\x0c' || x == '\r'
  isBreak := (· == '\n')
  sameLetter x y := x.toLower == y.toLower

theorem plain_highlighted :
    (Engine.backtracking plainAlphabet).FindsFirst ∧
    (Pattern.ofText? ColorRule.identifier).map (fun p =>
      ((Engine.backtracking plainAlphabet).search? p "𝒳é_x é".toList 0).map (·.span)) =
        some (some ⟨3, 5⟩) ∧
    ((withTable ⟨false, false⟩ { text := "JUMP 𝒳é_x" }).setSearch
      (.backtracking plainAlphabet) "X").2.1 =
      none := by
  have first := backtracking_findsFirst plainAlphabet
  obtain ⟨-, -, -, ended, -⟩ := highlighting_ends _ first ⟨false, false⟩ "JUMP 𝒳é_x" "X" []
  exact ⟨first, by decide +kernel, ended⟩

end Highlighter
end TacBench.Editor
