import TacBench.Proofs.CodeFiles
import TacBench.Proofs.ReplacedFiles
import TacBench.Proofs.Words

/-! Files that are removed. The names in a directory are taken away one after the other; as long as
only what is below the directory goes, a path that still leads somewhere leads where it has led at
first. -/
namespace TacBench.Files

/-- A name that something can have in a directory. -/
def FileName (name : String) : Prop :=
  (name ≠ "" ∧ name ≠ "." ∧ name ≠ "..") ∧ '/' ∉ name.toList ∧ '\x00' ∉ name.toList ∧
    name.utf8ByteSize ≤ nameBound

instance : DecidablePred FileName := fun _ => inferInstanceAs (Decidable (_ ∧ _))

/-- Below a directory, at whatever depth. -/
def Below (d k : Location) : Prop := d <:+ k ∧ d ≠ k

theorem Below.child {d k : Location} (below : Below d k) : ∃ name, name :: d <:+ k := by
  obtain ⟨⟨front, rfl⟩, other⟩ := below
  rcases List.eq_nil_or_concat front with rfl | ⟨front, name, rfl⟩
  · exact absurd rfl other
  · exact ⟨name, front, by simp⟩

theorem below_of_child {d k : Location} {name : String} (under : name :: d <:+ k) : Below d k := by
  refine ⟨(List.suffix_cons name d).trans under, ?_⟩
  rintro rfl
  have length := under.length_le
  rw [List.length_cons] at length
  omega

namespace Tree

/-- Every place has one node and stands in a directory, and every name is one that a file can
have. -/
structure Sound (t : Tree) : Prop where
  once : t.nodes.keys.Nodup
  named : ∀ l ∈ t.nodes.keys, ∀ name ∈ l, FileName name
  held : ∀ l ∈ t.nodes.keys, t.node? l.tail = some .directory

variable {t t' : Tree} {d k l : Location} {dir name : String}

theorem Sound.proper (sound : t.Sound) : t.Proper := ⟨sound.once, fun l member name inside =>
  (sound.named l member name inside).2.1⟩

theorem node?_eq_none_iff (some : l ≠ []) : t.node? l = none ↔ l ∉ t.nodes.keys := by
  unfold node?
  rw [if_neg (by simpa using some), Dictionary.find?, Option.map_eq_none_iff, List.find?_eq_none,
    Dictionary.keys, List.mem_map]
  constructor
  · rintro none ⟨e, member, same⟩
    exact none e member (decide_eq_true same)
  · intro none e member same
    exact none ⟨e, member, of_decide_eq_true same⟩

/-- Nothing stands below what is no directory. -/
theorem Sound.none_below (sound : t.Sound) (other : t.node? l ≠ some .directory)
    (below : Below l k) :
    t.node? k = none := by
  induction k with
  | nil => exact absurd (List.suffix_nil.mp below.1) below.2
  | cons name up ih =>
    rw [node?_eq_none_iff (List.cons_ne_nil _ _)]
    intro member
    have held : t.node? up = some .directory := sound.held _ member
    rcases List.suffix_cons_iff.mp below.1 with same | above
    · exact below.2 same
    · by_cases same : l = up
      · exact other (same ▸ held)
      · rw [ih ⟨above, same⟩] at held
        cases held

theorem Sound.fileName_child (sound : t.Sound) (child : name ∈ t.children l) : FileName name :=
  sound.named _ (mem_children.mp child) name List.mem_cons_self

theorem node?_of_child (child : name ∈ t.children l) : t.node? (name :: l) ≠ none := by
  rw [Ne, node?_eq_none_iff (List.cons_ne_nil _ _), not_not]
  exact mem_children.mp child

theorem located_of_exists {path : String} (there : t.exists? path = true) :
    ∃ d, t.locate path = .ok d ∧ t.node? d ≠ none := by
  unfold exists? get? at there
  split at there
  · rename_i d located
    exact ⟨d, located, Option.isSome_iff_ne_none.mp there⟩
  · cases there

theorem node?_erase (some : l ≠ []) (k : Location) :
    (t.erase l).node? k = if l <:+ k then none else t.node? k := by
  by_cases root : k = []
  · subst root
    rw [if_neg (by simpa using some)]
    rfl
  · have below : ¬ k.isEmpty = true := by simpa using root
    unfold node? erase Dictionary.find?
    rw [if_neg below, if_neg below, List.find?_filter]
    split
    · rename_i under
      have inside : l.isSuffixOf k = true := List.isSuffixOf_iff_suffix.mpr under
      rw [Option.map_eq_none_iff, List.find?_eq_none]
      rintro ⟨k', node⟩ -
      simp only [Bool.not_eq_true', decide_eq_true_eq, not_and]
      rintro apart rfl
      rw [inside] at apart
      cases apart
    · rename_i apart
      have outside : l.isSuffixOf k = false := by rwa [Bool.eq_false_iff, Ne,
        List.isSuffixOf_iff_suffix]
      congr 2
      funext e
      by_cases here : e.1 = k
      · simp [here, outside]
      · simp [here]

/-! A name behind the path of a directory. -/

theorem follow_name (named : FileName name) {first : List String} :
    t.follow l (first ++ [name]) = .ok k ↔
      ∃ d, k = name :: d ∧ t.follow l first = .ok d ∧ t.node? d = some .directory := by
  obtain ⟨⟨filled, here, up⟩, -, -, short⟩ := named
  have step {d : Location} (directory : t.node? d = some .directory) : t.follow d [name] =
      .ok (name :: d) := by
    unfold follow
    rw [directory]
    dsimp only
    rw [if_neg (by simp [filled, here]), if_neg (by simp [up]), if_neg (Nat.not_lt.mpr short)]
    rfl
  rw [follow_append]
  cases t.follow l first with
  | error c => simp [Except.bind]
  | ok d =>
    simp only [Except.bind, Except.ok.injEq]
    constructor
    · intro led
      by_cases directory : t.node? d = some .directory
      · rw [step directory] at led
        exact ⟨d, (Except.ok.inj led).symm, rfl, directory⟩
      · unfold follow at led
        split at led
        · cases led
        · exact absurd ‹_› directory
        · cases led
    · rintro ⟨d, rfl, rfl, directory⟩
      exact step directory

theorem follow_slash {first : List String} :
    t.follow l (first ++ [""]) = .ok k ↔ t.follow l first = .ok k ∧
    t.node? k = some .directory := by
  rw [follow_append]
  cases t.follow l first with
  | error c => simp [Except.bind]
  | ok d =>
    simp only [Except.bind, Except.ok.injEq]
    unfold follow
    constructor
    · intro led
      split at led
      · cases led
      · obtain rfl : d = k := by simpa [follow] using led
        exact ⟨rfl, ‹_›⟩
      · cases led
    · rintro ⟨rfl, directory⟩
      rw [directory]
      rfl

theorem locate_join (filled : dir ≠ "") (named : FileName name) :
    t.locate (join dir name) = .ok k ↔
      ∃ d, k = name :: d ∧ t.locate dir = .ok d ∧ t.node? d = some .directory ∧
        (join dir name).utf8ByteSize ≤ pathBound := by
  obtain ⟨start, joined, shape⟩ := join_plain filled named.2.1
  have whole : join dir name = String.ofList (start ++ '/' :: name.toList) := by rw [← joined,
    String.ofList_toList]
  have absolute : isAbsolute (join dir name) = isAbsolute dir := by
    rw [isAbsolute, isAbsolute, joined]
    rcases shape with same | ⟨same, -⟩
    · rw [same]
      cases start <;> rfl
    · cases start with
      | nil => exact absurd (String.toList_eq_nil_iff.mp same) filled
      | cons c rest => rw [same]; rfl
  have split : parts (join dir name) = parts (String.ofList start) ++ [name] := by
    rw [parts, joined, List.splitOn, List.splitOnP_append_cons _ _ (by simp), ← List.splitOn,
      ← List.splitOn, Text.splitOn_of_not_mem named.2.1, List.map_append, parts,
      String.toList_ofList, List.map_singleton, String.ofList_toList]
  have above (l d : Location) : t.follow l (parts dir) = .ok d ∧ t.node? d = some .directory ↔
      t.follow l (parts (String.ofList start)) = .ok d ∧ t.node? d = some .directory := by
    rcases shape with same | ⟨same, -⟩
    · have slashed : parts dir = parts (String.ofList start) ++ [""] := by
        have slashes := parts_slashes start 1
        rwa [List.replicate_one, List.replicate_one, ← same, String.ofList_toList] at slashes
      rw [slashed, follow_slash, and_assoc, and_self]
    · rw [← same, String.ofList_toList]
  have null : '\x00' ∉ (join dir name).toList ↔ '\x00' ∉ dir.toList := by
    rw [joined]
    rcases shape with same | ⟨same, -⟩
    · simp [same, named.2.2.1]
    · simp [same, named.2.2.1]
  have longer : dir.utf8ByteSize ≤ (join dir name).utf8ByteSize := by
    obtain ⟨rest, extended⟩ : ∃ rest, (join dir name).toList = dir.toList ++ rest := by
      rcases shape with same | ⟨same, -⟩
      · exact ⟨name.toList, by simp [joined, same]⟩
      · exact ⟨'/' :: name.toList, by simp [joined, same]⟩
    have text : join dir name = dir ++ String.ofList rest := by
      rw [← String.toList_inj, String.toList_append, String.toList_ofList, extended]
    rw [text, String.utf8ByteSize_append]
    exact Nat.le_add_right _ _
  have some : join dir name ≠ "" := by
    rw [whole]
    simp
  rw [locate_eq_ok, null, absolute, split, follow_name named]
  constructor
  · rintro ⟨clear, -, short, d, rfl, led⟩
    obtain ⟨led, directory⟩ := (above _ d).mpr led
    exact ⟨d, rfl, locate_eq_ok.mpr ⟨clear, filled, Nat.le_trans longer short, led⟩,
      directory, short⟩
  · rintro ⟨d, rfl, located, directory, short⟩
    obtain ⟨clear, -, -, led⟩ := locate_eq_ok.mp located
    exact ⟨clear, some, short, d, rfl, (above _ d).mp ⟨led, directory⟩⟩

/-! A path that never leads back stays above the place to which it leads. -/

theorem follow_direct {parts : List String} (direct : ".." ∉ parts) (led : t.follow l parts = .ok d)
    (kept : ∀ k, k <:+ d → t.node? k = some .directory → t'.node? k = some .directory) :
    l <:+ d ∧ t'.follow l parts = .ok d := by
  induction parts generalizing l with
  | nil =>
    cases led
    exact ⟨List.suffix_rfl, rfl⟩
  | cons part rest ih =>
    rw [List.mem_cons, not_or] at direct
    obtain ⟨other, direct⟩ := direct
    unfold follow at led ⊢
    split at led
    · cases led
    · rename_i directory
      split at led
      · rename_i here
        obtain ⟨above, led'⟩ := ih direct led
        rw [kept l above directory]
        exact ⟨above, by rw [if_pos here]; exact led'⟩
      · rename_i away
        rw [if_neg (by simpa using fun same => other same.symm)] at led
        split at led
        · cases led
        · rename_i short
          obtain ⟨above, led'⟩ := ih direct led
          have above := (List.suffix_cons part l).trans above
          rw [kept l above directory]
          refine ⟨above, ?_⟩
          dsimp only
          rw [if_neg away, if_neg (by simpa using fun same => other same.symm), if_neg short]
          exact led'
    · cases led

/-- The path never leads back, and with each name in the directory behind it, it is not too long. -/
def Direct (t : Tree) (dir : String) (d : Location) : Prop :=
  ".." ∉ parts dir ∧ ∀ name ∈ t.children d, (join dir name).utf8ByteSize ≤ pathBound

/-- Of these names in a directory all is gone that is not spared, and nothing else. -/
structure Cleared (d : Location) (spared : Location → Prop) (names : List String) (t t' : Tree) :
    Prop where
  top : t'.top = t.top
  gone : ∀ k, (∃ name ∈ names, name :: d <:+ k) → ¬ spared k → t'.node? k = none
  kept : ∀ k, ((∃ name ∈ names, name :: d <:+ k) → spared k) → t'.node? k = t.node? k

namespace Cleared

variable {spared : Location → Prop} {names : List String}

theorem none (d : Location) (spared : Location → Prop) (t : Tree) : Cleared d spared [] t t :=
  ⟨rfl, fun k under => by simp at under, fun _ _ => rfl⟩

section Names

variable (cleared : Cleared d spared names t t')
include cleared

theorem node?_cases (k : Location) : t'.node? k = .none ∨ t'.node? k = t.node? k := by
  by_cases free : (∃ name ∈ names, name :: d <:+ k) → spared k
  · exact .inr (cleared.kept k free)
  · rw [Classical.not_imp] at free
    exact .inl (cleared.gone k free.1 free.2)

/-- Nothing happens to what is not below the directory. -/
theorem outside (apart : Below d k → spared k) : t'.node? k = t.node? k :=
  cleared.kept k fun ⟨_, _, under⟩ => apart (below_of_child under)

theorem erase (unspared : ∀ k, name :: d <:+ k → ¬ spared k) :
    Cleared d spared (names ++ [name]) t (t'.erase (name :: d)) := by
  refine ⟨cleared.top, ?_, ?_⟩
  · rintro k ⟨name', member, under⟩ free
    rw [node?_erase (List.cons_ne_nil _ _)]
    split
    · rfl
    · rename_i apart
      rcases List.mem_append.mp member with before | last
      · exact cleared.gone k ⟨name', before, under⟩ free
      · exact absurd (List.mem_singleton.mp last ▸ under) apart
  · intro k free
    have apart : ¬ name :: d <:+ k := fun under => unspared k under (free ⟨name, by simp, under⟩)
    rw [node?_erase (List.cons_ne_nil _ _), if_neg apart]
    refine cleared.kept k fun ⟨name', before, under⟩ => free ⟨name', ?_, under⟩
    exact List.mem_append_left _ before

theorem spare (sound : t.Sound) (other : t.node? (name :: d) ≠ some .directory)
    (spares : spared (name :: d)) :
    Cleared d spared (names ++ [name]) t t' := by
  refine ⟨cleared.top, ?_, ?_⟩
  · rintro k ⟨name', member, under⟩ free
    rcases List.mem_append.mp member with before | last
    · exact cleared.gone k ⟨name', before, under⟩ free
    · rw [List.mem_singleton.mp last] at under
      have below : Below (name :: d) k := ⟨under, fun same => free (same ▸ spares)⟩
      rcases cleared.node?_cases k with gone | same
      · exact gone
      · rw [same, sound.none_below other below]
  · intro k free
    exact cleared.kept k fun ⟨name', before, under⟩ =>
      free ⟨name', List.mem_append_left _ before, under⟩

/-- A path that still leads somewhere leads where it has led before. -/
theorem locate {path : String} (located : t'.locate path = .ok k) : t.locate path = .ok k := by
  refine locate_of_directories cleared.top.symm (fun l directory => ?_) located
  rcases cleared.node?_cases l with gone | same
  · rw [gone] at directory
    cases directory
  · exact same ▸ directory

/-- The path of a name in the directory leads there, or nowhere if the way is not direct. -/
theorem locate_child (sound : t.Sound) (located : t.locate dir = .ok d)
    (child : name ∈ t.children d) :
    t'.locate (join dir name) = .ok (name :: d) ∨
      ¬ t.Direct dir d ∧ ∃ fault, t'.locate (join dir name) = .error fault := by
  have filled : dir ≠ "" := (locate_eq_ok.mp located).2.1
  have named := sound.fileName_child child
  cases found : t'.locate (join dir name) with
  | ok k =>
    obtain ⟨d', rfl, located', -⟩ := (locate_join filled named).mp (cleared.locate found)
    cases located.symm.trans located'
    exact .inl rfl
  | error fault =>
    refine .inr ⟨?_, fault, rfl⟩
    rintro ⟨direct, short⟩
    have directory : t.node? d = some .directory := sound.held _ (mem_children.mp child)
    have above (k : Location) (above : k <:+ d) : t'.node? k = t.node? k :=
      cleared.outside fun below =>
        absurd (above.eq_of_length (Nat.le_antisymm above.length_le below.1.length_le)).symm
        below.2
    obtain ⟨null, -, long, led⟩ := locate_eq_ok.mp located
    have home : t'.home = t.home := by rw [home, home, cleared.top]
    have found' : t'.locate dir = .ok d := by
      refine locate_eq_ok.mpr ⟨null, filled, long, ?_⟩
      rw [home]
      exact (follow_direct direct led fun k under directory => (above k under).trans directory).2
    have reached := (locate_join filled named).mpr
      ⟨d, rfl, found', (above d List.suffix_rfl).trans directory, short name child⟩
    rw [found] at reached
    cases reached

/-- Once all names are dealt with, only what is spared is left. -/
theorem all (sound : t.Sound) (every : ∀ name ∈ t.children d, name ∈ names) (below : Below d k)
    (free : ¬ spared k) : t'.node? k = .none := by
  obtain ⟨name, under⟩ := below.child
  by_cases child : name ∈ t.children d
  · exact cleared.gone k ⟨name, every name child, under⟩ free
  · have missing : t.node? (name :: d) = .none := by
      rw [node?_eq_none_iff (List.cons_ne_nil _ _)]
      exact fun member => child (mem_children.mpr member)
    have before : t.node? k = .none := by
      by_cases same : name :: d = k
      · exact same ▸ missing
      · exact sound.none_below (by simp [missing]) ⟨under, same⟩
    rcases cleared.node?_cases k with gone | same
    · exact gone
    · exact same.trans before

end Names
end Cleared
end Tree
end TacBench.Files
