import TacBench.Proofs.Loaded
import TacBench.Proofs.Parallel
import TacBench.Proofs.Words

/-! What of a code is loaded: the words of its lines, comments apart. Lines without a word leave no
trace but in the numbers of the others, and the first line with words must be the header. -/
namespace TacBench

open Text

/-- Both succeed with results that correspond, or both fail for the same cause. -/
inductive Concur {ε α : Type} (cause : ε → ε) (R : α → α → Prop) :
    Except ε α → Except ε α → Prop where
  | ok {a a' : α} (like : R a a') : Concur cause R (.ok a) (.ok a')
  | error {e e' : ε} (same : cause e = cause e') : Concur cause R (.error e) (.error e')

theorem Concur.bind {ε α β : Type} {cause : ε → ε} {R : α → α → Prop} {S : β → β → Prop}
    {x y : Except ε α} {f g : α → Except ε β} (first : Concur cause R x y)
    (rest : ∀ {a a'}, R a a' → Concur cause S (f a) (g a')) :
    Concur cause S (x >>= f) (y >>= g) := by
  cases first with
  | ok like => exact rest like
  | error same => exact .error same

/-- The fault without the place where it was found. -/
def Code.LoadFault.unplaced : Code.LoadFault → Code.LoadFault
  | .rejected e => .rejected { cause := e.cause }
  | f => f

namespace Machine.Tolerance

/-- Words that are read as the same operand. -/
def Words (t : Tolerance) (w w' : List Char) : Prop :=
  Concur id t.Operands (Operand.parse (String.ofList w)) (Operand.parse (String.ofList w'))

/-- Lines that are read as the same instruction. -/
inductive Lines (t : Tolerance) : List (List Char) → List (List Char) → Prop where
  | words {c c' : List Char} {ws ws' : List (List Char)} (command : upper c = upper c')
      (operands : List.Forall₂ t.Words ws ws') : Lines t (c :: ws) (c' :: ws')

/-- Lines of two codes behind the same first line, or behind two that are no headers. -/
inductive Codes (t : Tolerance) : List (List (List Char)) → List (List (List Char)) → Prop where
  | behind {first first' : List (List Char)} {rest rest' : List (List (List Char))}
      (heads : first = first' ∨ first ≠ [Program.header.toList] ∧ first' ≠ [Program.header.toList])
      (like : List.Forall₂ t.Lines rest rest') : Codes t (first :: rest) (first' :: rest')

variable {t : Tolerance} {ws ws' : List (List Char)}

theorem Words.refl (w : List Char) : t.Words w w := by
  unfold Words
  cases Operand.parse (String.ofList w) with
  | ok o => exact .ok (.refl o)
  | error f => exact .error rfl

theorem Lines.ne_nil (like : t.Lines ws ws') : ws ≠ [] ∧ ws' ≠ [] := by
  cases like with
  | words _ _ => exact ⟨List.cons_ne_nil _ _, List.cons_ne_nil _ _⟩

theorem Lines.refl (some : ws ≠ []) : t.Lines ws ws := by
  cases ws with
  | nil => contradiction
  | cons c ws => exact .words rfl (List.forall₂_same.mpr fun w _ => .refl w)

theorem Codes.ne_nil {code code' : List (List (List Char))} (like : t.Codes code code') :
    code ≠ [] ∧ code' ≠ [] := by
  cases like with
  | behind _ _ => exact ⟨List.cons_ne_nil _ _, List.cons_ne_nil _ _⟩

theorem Codes.of_cons {first first' : List (List Char)} {rest rest' : List (List (List Char))}
    (like : t.Codes (first :: rest) (first' :: rest')) :
    (first = [Program.header.toList] ↔ first' = [Program.header.toList]) ∧
    List.Forall₂ t.Lines rest rest' := by
  cases like with
  | behind heads like =>
    rcases heads with rfl | ⟨other, other'⟩
    · exact ⟨Iff.rfl, like⟩
    · exact ⟨iff_of_false other other', like⟩

theorem parseOperands_concur (like : List.Forall₂ t.Words ws ws') :
    Concur id (List.Forall₂ t.Operands) (Instruction.parseOperands (ws.map String.ofList))
      (Instruction.parseOperands (ws'.map String.ofList)) := by
  induction like with
  | nil => exact .ok .nil
  | cons first _ ih => exact ih.bind fun rest => first.bind fun o => .ok (.cons o rest)

theorem parse_concur {s s' : String} (like : t.Lines (fields s.toList) (fields s'.toList))
    (n n' : Int) :
    Concur Code.LoadFault.unplaced t.Counterparts (Instruction.parse s n)
    (Instruction.parse s' n') := by
  unfold Instruction.parse
  generalize fields s.toList = words at like ⊢
  generalize fields s'.toList = words' at like ⊢
  cases like with
  | @words c c' ws ws' command operands =>
    dsimp only
    rw [command]
    split
    · exact .error rfl
    · rw [operands.length_eq]
      split
      · exact .error rfl
      · have read := parseOperands_concur operands
        generalize Instruction.parseOperands (ws.map String.ofList) = r at read ⊢
        generalize Instruction.parseOperands (ws'.map String.ofList) = r' at read ⊢
        cases read with
        | ok like => exact .ok ⟨rfl, like⟩
        | @error e e' same =>
          cases show e = e' from same
          cases e <;> exact .error rfl

end Machine.Tolerance

namespace Program

open Code Machine

/-- The words of a line that are no comment. -/
def tokens (raw : List Char) : List (List Char) := fields (raw.takeWhile (· != '#'))

/-- The words of a code, line by line, without the lines that have none. -/
def tokenLines (code : List Char) : List (List (List Char)) :=
  ((lines code).map tokens).filter (!·.isEmpty)

theorem isBlank_ne_hash {c : Char} (blank : isBlank c = true) : (c != '#') = true := by
  simp only [bne_iff_ne, ne_eq]
  rintro rfl
  exact absurd blank (by decide)

theorem tokens_strip (raw : List Char) : tokens (strip raw) = tokens raw := by
  obtain ⟨before, after, parts, front, back⟩ := stripBy_parts isBlank raw
  have clear : ∀ c ∈ before, (c != '#') = true := fun c member => isBlank_ne_hash (front c member)
  have clear' : ∀ c ∈ after, (c != '#') = true := fun c member => isBlank_ne_hash (back c member)
  unfold tokens
  conv => rhs; rw [parts, List.takeWhile_append_of_pos clear]
  have skipped := runs_before front ((stripBy isBlank raw ++ after).takeWhile (· != '#'))
  refine Eq.trans ?_ skipped.symm
  rw [List.takeWhile_append]
  split
  · rename_i whole
    have all : (stripBy isBlank raw).takeWhile (· != '#') = stripBy isBlank raw :=
      (List.takeWhile_prefix _).eq_of_length whole
    have rest : after.takeWhile (· != '#') = after := by
      have taken : (after ++ []).takeWhile (· != '#') = after ++ [].takeWhile (· != '#') :=
        List.takeWhile_append_of_pos clear'
      simpa using taken
    rw [rest]
    exact (congrArg fields all).trans (runs_after back _).symm
  · rfl

theorem fields_significant (raw : List Char) : fields (significant raw) = tokens raw := by
  have stripped : fields (significant raw) = tokens (strip raw) := runs_stripBy isBlank _
  rw [stripped, tokens_strip]

theorem significant_eq_nil_iff {raw : List Char} : significant raw = [] ↔ tokens raw = [] := by
  rw [← tokens_strip raw]
  exact stripBy_eq_nil_iff.trans runs_eq_nil_iff.symm

theorem significant_eq_header_iff {raw : List Char} :
    String.ofList (significant raw) = header ↔ tokens raw = [header.toList] := by
  constructor
  · intro same
    have spelled : significant raw = header.toList := by rw [← same, String.toList_ofList]
    rw [← fields_significant, spelled]
    decide
  · intro single
    rw [← tokens_strip] at single
    have word : significant raw = header.toList := stripBy_of_single_run single
    rw [word, String.ofList_toList]

variable {started : Bool} {t : Tolerance} {raw raw' : List Char} {n n' : Nat}
  {rest rest' : List (List Char × Nat)}

theorem isEmpty_significant : (String.ofList (significant raw)).isEmpty = true ↔
    tokens raw = [] := by
  rw [← significant_eq_nil_iff, String.isEmpty_iff]
  exact String.ofList_eq_empty_iff

theorem loadLines_skip (empty : tokens raw = []) :
    loadLines started ((raw, n) :: rest) = loadLines started rest := by
  rw [loadLines]
  exact if_pos (isEmpty_significant.mpr empty)

theorem loadLines_instruction (some : tokens raw ≠ []) :
    loadLines true ((raw, n) :: rest) =
      (do
        let i ← Instruction.parse (String.ofList (significant raw)) n
        let is ← loadLines true rest
        return i :: is) := by
  rw [loadLines]
  exact if_neg (some ∘ isEmpty_significant.mp)

theorem loadLines_header (single : tokens raw = [header.toList]) :
    loadLines false ((raw, n) :: rest) = loadLines true rest := by
  have some : tokens raw ≠ [] := by simp [single]
  rw [loadLines]
  refine (if_neg (some ∘ isEmpty_significant.mp)).trans ?_
  exact if_pos (significant_eq_header_iff.mpr single)

theorem loadLines_headless (some : tokens raw ≠ []) (other : tokens raw ≠ [header.toList]) :
    loadLines false ((raw, n) :: rest) =
      .error (.rejected ⟨.missingHeader, .number n, String.ofList (significant raw)⟩) := by
  rw [loadLines]
  refine (if_neg (some ∘ isEmpty_significant.mp)).trans ?_
  exact if_neg (other ∘ significant_eq_header_iff.mp)

/-- Whether a numbered line has words. -/
def counts (entry : List Char × Nat) : Bool := !(tokens entry.1).isEmpty

theorem loadLines_filter (started : Bool) (numbered : List (List Char × Nat)) :
    loadLines started (numbered.filter counts) = loadLines started numbered := by
  induction numbered generalizing started with
  | nil => rfl
  | cons entry rest ih =>
    obtain ⟨raw, n⟩ := entry
    by_cases empty : tokens raw = []
    · rw [List.filter_cons_of_neg (by simp [counts, empty]), ih, loadLines_skip empty]
    · rw [List.filter_cons_of_pos (by simp [counts, empty])]
      cases started with
      | true => rw [loadLines_instruction empty, loadLines_instruction empty, ih]
      | false =>
        by_cases single : tokens raw = [header.toList]
        · rw [loadLines_header single, loadLines_header single, ih]
        · rw [loadLines_headless empty single, loadLines_headless empty single]

theorem loadLines_concur
    (like : List.Forall₂ (fun e e' => t.Lines (tokens e.1) (tokens e'.1)) rest rest') :
    Concur LoadFault.unplaced (List.Forall₂ t.Counterparts) (loadLines true rest)
      (loadLines true rest') := by
  induction like with
  | nil => exact .ok .nil
  | @cons entry entry' _ _ first _ ih =>
    obtain ⟨raw, n⟩ := entry
    obtain ⟨raw', n'⟩ := entry'
    rw [loadLines_instruction first.ne_nil.1, loadLines_instruction first.ne_nil.2]
    rw [← fields_significant, ← fields_significant, ← String.toList_ofList (l := significant raw),
      ← String.toList_ofList (l := significant raw')] at first
    exact (Tolerance.parse_concur first n n').bind fun i => ih.bind fun is => .ok (.cons i is)

theorem tokenLines_eq (code : List Char) (k : Nat) :
    tokenLines code = (((lines code).zipIdx k).filter counts).map fun e => tokens e.1 := by
  have numbered : lines code = ((lines code).zipIdx k).map Prod.fst :=
    List.zipIdx_map_fst k _ |>.symm
  unfold tokenLines
  conv => lhs; rw [numbered]
  rw [List.map_map, List.filter_map]
  rfl

theorem tokenLines_of_blank {code : List Char} (blank : code.all isBlank = true) :
    tokenLines code = [] := by
  refine List.filter_eq_nil_iff.mpr fun ws member => ?_
  obtain ⟨raw, inside, rfl⟩ := List.mem_map.mp member
  have blank : ∀ c ∈ raw.takeWhile (· != '#'), isBlank c = true := by
    intro c taken
    refine List.all_eq_true.mp blank c ?_
    obtain ⟨broken, among, rfl⟩ := List.mem_map.mp inside
    have kept : broken.1 ++ broken.2 ∈ keptLines id code := List.mem_map.mpr ⟨broken, among, rfl⟩
    rw [← keptLines_flatten id code]
    refine List.mem_flatten.mpr ⟨_, kept, List.mem_append_left _ ?_⟩
    exact (List.takeWhile_sublist _).subset taken
  have none : tokens raw = [] := runs_eq_nil_iff.mpr blank
  simp [none]

theorem not_blank_of_tokenLines {code : List Char} (some : tokenLines code ≠ []) :
    code.all isBlank = false := by
  rw [← Bool.not_eq_true]
  exact fun blank => some (tokenLines_of_blank blank)

theorem load_eq {code : String} (some : code.toList.all isBlank = false) :
    load code = (loadLines false (((lines code.toList).zipIdx 1).filter counts)).map
      fun is => ⟨is.toArray⟩ := by
  rw [loadLines_filter]
  exact if_neg (by simp [some])

/-- A code of nothing but comments is a program without instructions. -/
theorem load_of_comments {code : String} (some : code.toList.all isBlank = false)
    (none : tokenLines code.toList = []) : load code = .ok ⟨#[]⟩ := by
  rw [tokenLines_eq _ 1, List.map_eq_nil_iff] at none
  rw [load_eq some, none]
  rfl

theorem loadLines_codes {numbered numbered' : List (List Char × Nat)}
    (some : ∀ e ∈ numbered, counts e = true) (some' : ∀ e ∈ numbered', counts e = true)
    (like : t.Codes (numbered.map fun e => tokens e.1) (numbered'.map fun e => tokens e.1)) :
    Concur LoadFault.unplaced (List.Forall₂ t.Counterparts) (loadLines false numbered)
      (loadLines false numbered') := by
  cases numbered with
  | nil => exact absurd rfl like.ne_nil.1
  | cons entry rest =>
    cases numbered' with
    | nil => exact absurd rfl like.ne_nil.2
    | cons entry' rest' =>
      obtain ⟨raw, n⟩ := entry
      obtain ⟨raw', n'⟩ := entry'
      obtain ⟨heads, like⟩ := like.of_cons
      have words : tokens raw ≠ [] := by simpa [counts] using some (raw, n) List.mem_cons_self
      have words' : tokens raw' ≠ [] := by simpa [counts] using some' (raw', n') List.mem_cons_self
      by_cases single : tokens raw = [header.toList]
      · rw [loadLines_header single, loadLines_header (heads.mp single)]
        rw [List.forall₂_map_left_iff, List.forall₂_map_right_iff] at like
        exact loadLines_concur like
      · rw [loadLines_headless words single, loadLines_headless words' (single ∘ heads.mpr)]
        exact .error rfl

/-- Codes with like words in their lines load alike. -/
theorem load_concur {code code' : String}
    (like : t.Codes (tokenLines code.toList) (tokenLines code'.toList)) :
    Concur LoadFault.unplaced
      (fun p p' => List.Forall₂ t.Counterparts p.instructions.toList p'.instructions.toList)
      (load code) (load code') := by
  rw [load_eq (not_blank_of_tokenLines like.ne_nil.1),
    load_eq (not_blank_of_tokenLines like.ne_nil.2)]
  rw [tokenLines_eq _ 1, tokenLines_eq _ 1] at like
  have counted (k : List (List Char × Nat)) : ∀ e ∈ k.filter counts, counts e = true :=
    fun _ member => (List.mem_filter.mp member).2
  exact (loadLines_codes (counted _) (counted _) like).bind fun is => .ok is

end Program
end TacBench
