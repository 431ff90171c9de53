import TacBench.Machine.Run

/-! The table of labels. Its entries are the label instructions of the program, each key stands in
it once, and no two keys share a position, so that the table can be read backwards. -/
namespace TacBench

namespace Dictionary

variable {κ α : Type} [DecidableEq κ] {d : Dictionary κ α} {k l : κ} {a b : α}

theorem mem_insert (member : (l, b) ∈ d.insert k a) : (l, b) = (k, a) ∨ (l, b) ∈ d := by
  induction d with
  | nil => exact .inl (List.mem_singleton.mp member)
  | cons e rest ih =>
    unfold insert at member
    split at member
    · rcases List.mem_cons.mp member with same | later
      · exact .inl same
      · exact .inr (List.mem_cons_of_mem _ later)
    · rcases List.mem_cons.mp member with same | later
      · exact .inr (same ▸ List.mem_cons_self)
      · exact (ih later).imp_right (List.mem_cons_of_mem _)

theorem mem_keys_insert (member : l ∈ (d.insert k a).keys) : l = k ∨ l ∈ d.keys := by
  obtain ⟨⟨l, b⟩, entry, rfl⟩ := List.mem_map.mp member
  rcases mem_insert entry with same | old
  · exact .inl (congrArg Prod.fst same)
  · exact .inr (List.mem_map.mpr ⟨_, old, rfl⟩)

theorem nodup_insert (once : d.keys.Nodup) : (d.insert k a).keys.Nodup := by
  induction d with
  | nil => simp [insert, keys]
  | cons e rest ih =>
    obtain ⟨fresh, once⟩ := List.nodup_cons.mp once
    unfold insert
    split
    · rename_i same
      exact List.nodup_cons.mpr ⟨same ▸ fresh, once⟩
    · rename_i different
      refine List.nodup_cons.mpr ⟨fun member => ?_, ih once⟩
      exact (mem_keys_insert member).elim different fresh

theorem mem_of_find? (found : d.find? k = some a) : (k, a) ∈ d := by
  obtain ⟨e, first, rfl⟩ := Option.map_eq_some_iff.mp found
  have key : e.1 = k := by simpa using List.find?_some first
  exact key ▸ List.mem_of_find?_eq_some first

theorem mem_keys_of_find? (found : d.find? k = some a) : k ∈ d.keys :=
  List.mem_map.mpr ⟨_, mem_of_find? found, rfl⟩

theorem contains_iff : d.contains k = true ↔ k ∈ d.keys := by
  simp [contains, keys]

theorem find?_of_mem (once : d.keys.Nodup) (member : (k, a) ∈ d) : d.find? k = some a := by
  induction d with
  | nil => contradiction
  | cons e rest ih =>
    obtain ⟨fresh, once⟩ := List.nodup_cons.mp once
    rcases List.mem_cons.mp member with same | later
    · subst same
      simp [find?]
    · have other : e.1 ≠ k := fun same => fresh (List.mem_map.mpr ⟨_, later, same.symm⟩)
      simpa [find?, other] using ih once later

end Dictionary

namespace Program

variable {p : Program} {l k : Option String} {n : Int}

/-- The instruction at a position. -/
def at? (p : Program) (n : Int) : Option Instruction :=
  if n < 0 then none else p.instructions[n.toNat]?

theorem fetch?_eq (p : Program) (m : Machine) : p.fetch? m = p.at? m.pc := rfl

theorem at?_bounds {i : Instruction} (found : p.at? n = some i) :
    0 ≤ n ∧ n < p.instructions.size := by
  unfold at? at found
  split at found
  · contradiction
  · obtain ⟨bound, _⟩ := Array.getElem?_eq_some_iff.mp found
    omega

theorem lineAt?_of_at? {i : Instruction} (found : p.at? n = some i) :
    p.lineAt? n = some i.index := by
  have low : ¬ n < 0 := Int.not_lt.mpr (at?_bounds found).1
  rw [at?, if_neg low] at found
  simp only [lineAt?, if_neg low, found, Option.map_some]

theorem at?_of_bounds (nonneg : 0 ≤ n) (bound : n < p.instructions.size) :
    ∃ i, p.at? n = some i := by
  have inside : n.toNat < p.instructions.size := by omega
  exact ⟨p.instructions[n.toNat], by
    rw [at?, if_neg (by omega), Array.getElem?_eq_getElem inside]⟩

/-- The instruction at a position is a label instruction for `l`. -/
def LabelAt (p : Program) (l : Option String) (n : Int) : Prop :=
  ∃ i o rest, p.at? n = some i ∧ i.opcode = .label ∧ i.operands = o :: rest ∧ labelOf o = l

theorem LabelAt.unique (first : p.LabelAt l n) (second : p.LabelAt k n) : l = k := by
  obtain ⟨i, o, rest, found, -, operands, rfl⟩ := first
  obtain ⟨j, q, rest', found', -, operands', rfl⟩ := second
  cases Option.some.inj (found.symm.trans found')
  cases List.cons.inj (operands.symm.trans operands') with
  | intro same _ => rw [same]

theorem LabelAt.lt_size (label : p.LabelAt l n) : n < p.instructions.size := by
  obtain ⟨_, _, _, found, -⟩ := label
  exact (at?_bounds found).2

/-- One entry of the table, made from an instruction and its position. -/
def enter (d : Dictionary (Option String) Int) : Instruction × Nat → Dictionary (Option String) Int
  | (i, n) => match i.opcode, i.operands with
    | .label, o :: _ => d.insert (labelOf o) n
    | _, _ => d

theorem labels_eq (p : Program) : p.labels = p.instructions.toList.zipIdx.foldl enter [] := rfl

theorem enter_cases (d : Dictionary (Option String) Int) (i : Instruction) (n : Nat) :
    (∃ o rest, i.opcode = .label ∧ i.operands = o :: rest ∧
      enter d (i, n) = d.insert (labelOf o) n) ∨ enter d (i, n) = d := by
  unfold enter
  dsimp only
  split
  · rename_i o rest opcode operands
    exact .inl ⟨o, rest, opcode, operands, rfl⟩
  · exact .inr rfl

/-- What holds of the empty table and survives the entry of each label instruction holds of the
table of the program. -/
theorem labels_induction {P : Dictionary (Option String) Int → Prop} (p : Program) (empty : P [])
    (entered : ∀ d l (n : Nat), P d → p.LabelAt l n → P (d.insert l n)) : P p.labels := by
  have all : ∀ entries : List (Instruction × Nat), (∀ e ∈ entries, p.at? e.2 = some e.1) →
      ∀ d, P d → P (entries.foldl enter d) := by
    intro entries
    induction entries with
    | nil => exact fun _ d holds => holds
    | cons e rest ih =>
      intro placed d holds
      refine ih (fun e member => placed e (List.mem_cons_of_mem _ member)) _ ?_
      rcases enter_cases d e.1 e.2 with ⟨o, others, opcode, operands, same⟩ | same
      · rw [same]
        exact entered d _ _ holds ⟨e.1, o, others, placed e List.mem_cons_self, opcode,
          operands, rfl⟩
      · rw [same]
        exact holds
  rw [labels_eq]
  refine all _ (fun e member => ?_) _ empty
  have found := List.mem_zipIdx_iff_getElem?.mp member
  simpa [at?] using found

theorem labels_nodup (p : Program) : p.labels.keys.Nodup :=
  labels_induction (P := fun d => d.keys.Nodup) p List.nodup_nil
    fun _ _ _ once _ => Dictionary.nodup_insert once

theorem mem_labels (member : (l, n) ∈ p.labels) : p.LabelAt l n := by
  refine labels_induction (P := fun d => ∀ l n, (l, n) ∈ d → p.LabelAt l n) p ?_ ?_ l n member
  · intro l n member
    contradiction
  · intro d k position placed label l n member
    rcases Dictionary.mem_insert member with same | old
    · cases same
      exact label
    · exact placed l n old

theorem labelAt_of_find? (found : p.labels.find? l = some n) : p.LabelAt l n :=
  mem_labels (Dictionary.mem_of_find? found)

theorem find?_labels : p.labels.find? l = some n ↔ (l, n) ∈ p.labels :=
  ⟨Dictionary.mem_of_find?, Dictionary.find?_of_mem p.labels_nodup⟩

theorem enter_of_label {d : Dictionary (Option String) Int} {i : Instruction} {o : Operand}
    {rest : List Operand} (opcode : i.opcode = .label)
    (operands : i.operands = o :: rest) (n : Nat) :
    enter d (i, n) = d.insert (labelOf o) n := by
  simp only [enter, opcode, operands]

theorem enter_of_no_label {d : Dictionary (Option String) Int} {i : Instruction}
    (other : ∀ o rest, i.opcode = .label → i.operands ≠ o :: rest) (n : Nat) :
    enter d (i, n) = d := by
  rcases enter_cases d i n with ⟨o, rest, opcode, operands, -⟩ | same
  · exact absurd operands (other o rest opcode)
  · exact same

/-- The table is built from the first instruction to the last: what holds of the empty table and, of
the table of the first `k` instructions, survives the entry of the next one, holds of the whole
table. -/
theorem labels_forward {P : Nat → Dictionary (Option String) Int → Prop} (p : Program)
    (empty : P 0 []) (entered : ∀ k d i, p.instructions[k]? = some i → P k d →
      P (k + 1) (enter d (i, k))) :
    P p.instructions.size p.labels := by
  have all : ∀ (is : List Instruction) (k : Nat) (d : Dictionary (Option String) Int),
      (∀ j, is[j]? = p.instructions[k + j]?) → P k d →
      P (k + is.length) ((is.zipIdx k).foldl enter d) := by
    intro is
    induction is with
    | nil => exact fun k d _ holds => holds
    | cons i is ih =>
      intro k d placed holds
      have here : p.instructions[k]? = some i := (placed 0).symm
      have rest := ih (k + 1) (enter d (i, k)) (fun j => ?_) (entered k d i here holds)
      · rw [List.zipIdx_cons, List.foldl_cons, List.length_cons]
        rwa [Nat.add_right_comm] at rest
      · have next := placed (j + 1)
        rwa [List.getElem?_cons_succ, ← Nat.add_assoc, Nat.add_right_comm] at next
  have whole := all p.instructions.toList 0 [] (fun j => ?_) empty
  · rwa [Nat.zero_add] at whole
  · rw [Nat.zero_add, Array.getElem?_toList]

/-- What the table should give for a label if only the positions before `k` counted: the last of
them that has the label. -/
def LastBefore (p : Program) (l : Option String) (k : Nat) : Option Int → Prop
  | some n => p.LabelAt l n ∧ ∀ j, p.LabelAt l j → j < k → j ≤ n
  | none => ∀ j, p.LabelAt l j → ¬ j < k

theorem LastBefore.skip {k : Nat} {found : Option Int} (last : p.LastBefore l k found)
    (other : ¬ p.LabelAt l k) : p.LastBefore l (k + 1) found := by
  have earlier : ∀ j : Int, p.LabelAt l j → j < (k + 1 : Nat) → j < k := by
    intro j label before
    have apart : j ≠ k := fun same => other (same ▸ label)
    omega
  cases found with
  | none => exact fun j label before => last j label (earlier j label before)
  | some n => exact ⟨last.1, fun j label before => last.2 j label (earlier j label before)⟩

theorem labels_lastBefore (p : Program) (l : Option String) :
    p.LastBefore l p.instructions.size (p.labels.find? l) := by
  refine labels_forward (P := fun k d => ∀ l, p.LastBefore l k (d.find? l)) p ?_ ?_ l
  · intro l j label
    obtain ⟨_, _, _, found, -⟩ := label
    have bounds := at?_bounds found
    omega
  · intro k d i found last l
    have here : p.at? k = some i := by simpa [at?] using found
    by_cases isLabel : ∃ o rest, i.opcode = .label ∧ i.operands = o :: rest
    · obtain ⟨o, rest, opcode, operands⟩ := isLabel
      have placed : p.LabelAt (labelOf o) k := ⟨i, o, rest, here, opcode, operands, rfl⟩
      rw [enter_of_label opcode operands, Dictionary.find?_insert]
      split
      · rename_i same
        exact ⟨same ▸ placed, fun j _ before => by omega⟩
      · rename_i different
        exact (last l).skip fun label => different (placed.unique label)
    · have other : ∀ o rest, i.opcode = .label → i.operands ≠ o :: rest :=
        fun o rest opcode operands => isLabel ⟨o, rest, opcode, operands⟩
      rw [enter_of_no_label other]
      refine (last l).skip fun label => ?_
      obtain ⟨j, o, rest, same, opcode, operands, -⟩ := label
      cases Option.some.inj (here.symm.trans same)
      exact other o rest opcode operands

/-- The table gives for each label the last label instruction with it. -/
theorem find?_labels_last (found : p.labels.find? l = some n) :
    p.LabelAt l n ∧ ∀ j, p.LabelAt l j → j ≤ n := by
  have last := p.labels_lastBefore l
  rw [found] at last
  exact ⟨last.1, fun j label => last.2 j label label.lt_size⟩

theorem find?_labels_none (found : p.labels.find? l = none) (j : Int) : ¬ p.LabelAt l j := by
  intro label
  have last := p.labels_lastBefore l
  rw [found] at last
  exact last j label label.lt_size

end Program

namespace Machine

variable {p : Program} {m : Machine} {n : Int}

/-- Reading the table backwards finds the one entry at a position. -/
theorem labelAt_of_label {l : String} (table : m.labels = p.labels)
    (found : m.labels.find? (some l) = some n) : m.labelAt n = l := by
  rw [table] at found
  unfold labelAt
  rw [table]
  cases first : p.labels.reverse.find? (·.2 = n) with
  | none =>
    have absent := List.find?_eq_none.mp first (some l, n)
      (List.mem_reverse.mpr (Dictionary.mem_of_find? found))
    simp at absent
  | some e =>
    obtain ⟨key, position⟩ := e
    have same : position = n := by simpa using List.find?_some first
    subst same
    have entry := List.mem_reverse.mp (List.mem_of_find?_eq_some first)
    rw [(Program.mem_labels entry).unique (Program.labelAt_of_find? found)]

theorem labelAt_of_no_label (table : m.labels = p.labels)
    (absent : ∀ l, m.labels.find? (some l) ≠ some n) : m.labelAt n = "" := by
  unfold labelAt
  split
  · rename_i l position first
    have same : position = n := by simpa using List.find?_some first
    subst same
    have entry := List.mem_reverse.mp (List.mem_of_find?_eq_some first)
    rw [table] at absent entry
    exact absurd (Program.find?_labels.mpr entry) (absent l)
  · rfl

end Machine
end TacBench
