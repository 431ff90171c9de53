import TacBench.Files.Tree
import TacBench.Proofs.Loaded

/-! A file that has been written is found again under the same path, with what was written into
it. -/
namespace TacBench.Files.Tree

variable {t t' : Tree} {l k : Location} {path : String} {content : List UInt8}

/-- On the way along a path there are only directories. -/
theorem follow_of_directories
    (kept : ∀ l, t.node? l = some .directory → t'.node? l = some .directory) {parts : List String}
    (led : t.follow l parts = .ok k) : t'.follow l parts = .ok k := by
  induction parts generalizing l with
  | nil => exact led
  | cons part rest ih =>
    unfold follow at led ⊢
    split at led
    · contradiction
    · rename_i directory
      rw [kept l directory]
      dsimp only
      split at led
      · rename_i here
        rw [if_pos here]
        exact ih led
      · rename_i away
        rw [if_neg away]
        split at led
        · rename_i up
          rw [if_pos up]
          exact ih led
        · rename_i down
          rw [if_neg down]
          split at led
          · contradiction
          · rename_i short
            rw [if_neg short]
            exact ih led
    · contradiction

theorem locate_of_directories (top : t'.top = t.top)
    (kept : ∀ l, t.node? l = some .directory → t'.node? l = some .directory)
    (located : t.locate path = .ok l) : t'.locate path = .ok l := by
  have home : t'.home = t.home := by rw [Tree.home, Tree.home, top]
  unfold locate reach at located ⊢
  rw [home]
  split at located
  · contradiction
  · rename_i plain
    rw [if_neg plain]
    split at located
    · contradiction
    · rename_i some
      rw [if_neg some]
      split at located
      · contradiction
      · rename_i short
        rw [if_neg short]
        cases led : t.follow (if isAbsolute path then [] else t.home) (parts path) with
        | error c =>
          rw [led] at located
          contradiction
        | ok k =>
          rw [led] at located
          rw [follow_of_directories kept led]
          exact located

theorem node?_insert (some : l ≠ []) (node : Node) (k : Location) :
    ({ t with nodes := t.nodes.insert l node } : Tree).node? k = if l = k then .some node
    else t.node? k := by
  unfold node?
  by_cases root : k = []
  · subst root
    rw [if_neg some]
    rfl
  · have below : ¬ k.isEmpty = true := by simpa using root
    rw [if_neg below, if_neg below, Dictionary.find?_insert]

/-- A file put where no directory is, alone or in the place of another. -/
def put (t : Tree) (l : Location) (content : List UInt8) : Tree :=
  { t with nodes := t.nodes.insert l (.file content) }

theorem node?_put (some : l ≠ []) (k : Location) :
    (t.put l content).node? k = if l = k then .some (.file content) else t.node? k :=
  node?_insert some (.file content) k

theorem locateNew_ok (located : t.locateNew path = .ok l) : t.locate path = .ok l := by
  unfold locateNew at located
  split at located
  · contradiction
  · rename_i k found
    split at located
    · rename_i bare
      rw [bare] at found
      exact found.trans located
    · split at located <;> contradiction

/-- Writing either puts a file where no directory is, or goes into a sink. -/
theorem write_cases (written : t.write path content = .ok t') :
    ∃ l, t.locate path = .ok l ∧ (t.node? l ≠ some .directory ∧ t' = t.put l content ∨
      t.node? l = some .sink ∧ t' = t) := by
  unfold write at written
  obtain ⟨l, located, written⟩ := bind_eq_ok written
  refine ⟨l, locateNew_ok located, ?_⟩
  cases there : t.node? l with
  | none =>
    simp only [there] at written
    split at written
    · exact .inl ⟨by simp, (Except.ok.inj written).symm⟩
    · contradiction
  | some n =>
    cases n with
    | directory =>
      simp only [there] at written
      contradiction
    | sink =>
      simp only [there] at written
      exact .inr ⟨rfl, (Except.ok.inj written).symm⟩
    | file old =>
      simp only [there] at written
      exact .inl ⟨by simp, (Except.ok.inj written).symm⟩

/-- What has been written is read back, unless it went into a sink. -/
theorem read_of_write (written : t.write path content = .ok t') (real : t.get? path ≠ some .sink) :
    t'.read path = .ok content := by
  obtain ⟨l, located, ⟨other, rfl⟩ | ⟨sink, rfl⟩⟩ := write_cases written
  · have some : l ≠ [] := by
      rintro rfl
      exact other rfl
    have kept (k : Location) (directory : t.node? k = .some .directory) :
        (t.put l content).node? k = .some .directory := by
      rw [node?_put some, if_neg, directory]
      rintro rfl
      exact other directory
    have top : (t.put l content).top = t.top := rfl
    have found := locate_of_directories top kept located
    have there : (t.put l content).node? l = .some (.file content) := by
      rw [node?_put some, if_pos rfl]
    simp only [read, found, bind, Except.bind, there]
  · simp [get?, located, sink] at real

/-- A directory is made where nothing has been. -/
theorem makeDirectory_ok (made : t.makeDirectory path = .ok t') :
    ∃ d, t.locate (bare path) = .ok d ∧ t.node? d = none ∧
      ∀ k, t'.node? k = if d = k then some .directory else t.node? k := by
  unfold makeDirectory at made
  cases found : t.locate (bare path) with
  | error f =>
    rw [found] at made
    cases made
  | ok d =>
    rw [found] at made
    dsimp only at made
    split at made
    · cases made
    · rename_i free
      have none : t.node? d = none := by simpa using free
      have filled : d ≠ [] := by
        rintro rfl
        cases none
      split at made
      · cases made
        exact ⟨d, rfl, none, node?_insert filled .directory⟩
      · cases made

end TacBench.Files.Tree
