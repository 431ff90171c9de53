import TacBench.Files.Glob
import TacBench.Proofs.Selection
import TacBench.Proofs.WrittenFiles

/-! A file whose content is replaced. Paths lead where they have led, directories hold the same
names and patterns find the same files; only what is read of the file itself is new. -/
namespace TacBench.Files

namespace Tree

variable {t : Tree} {l k : Location} {old content : List UInt8} {path : String}

theorem children_eq (t : Tree) (l : Location) :
    t.children l = t.nodes.keys.filterMap fun k => if k.tail = l then k.head? else none := by
  rw [children, Dictionary.keys, List.filterMap_map]
  refine List.filterMap_congr fun e _ => ?_
  obtain ⟨k, node⟩ := e
  cases k with
  | nil => simp
  | cons name up => rfl

section Replaced

variable (there : t.node? l = some (.file old))

include there

theorem node?_replaced (k : Location) :
    (t.put l content).node? k = if l = k then some (.file content) else t.node? k := by
  refine node?_put ?_ k
  rintro rfl
  cases there

theorem follow_replaced (k : Location) (parts : List String) :
    (t.put l content).follow k parts = t.follow k parts := by
  induction parts generalizing k with
  | nil => rfl
  | cons part rest ih =>
    unfold follow
    rw [node?_replaced there]
    by_cases here : l = k
    · rw [if_pos here, ← here, there]
    · rw [if_neg here]
      simp only [ih]

theorem locate_replaced (path : String) : (t.put l content).locate path = t.locate path := by
  unfold locate reach
  rw [follow_replaced there]
  rfl

theorem get?_replaced_self (located : t.locate path = .ok l) :
    t.get? path = some (.file old) ∧ (t.put l content).get? path = some (.file content) := by
  unfold get?
  rw [locate_replaced there, located]
  dsimp only
  rw [node?_replaced there, if_pos rfl]
  exact ⟨there, rfl⟩

theorem get?_replaced_other (other : t.locate path ≠ .ok l) :
    (t.put l content).get? path = t.get? path := by
  unfold get?
  rw [locate_replaced there]
  cases located : t.locate path with
  | error f => rfl
  | ok k =>
    dsimp only
    rw [node?_replaced there, if_neg]
    rintro rfl
    exact other located

/-- Nothing about a path changes but what is read. -/
theorem kind_replaced (path : String) :
    (t.put l content).isFile path = t.isFile path ∧ (t.put l content).isDirectory path =
      t.isDirectory path ∧
      (t.put l content).exists? path = t.exists? path := by
  unfold isFile isDirectory exists?
  by_cases here : t.locate path = .ok l
  · obtain ⟨before, after⟩ : _ ∧ (t.put l content).get? path = _ := get?_replaced_self there here
    rw [before, after]
    exact ⟨rfl, rfl, rfl⟩
  · rw [get?_replaced_other there here]
    exact ⟨rfl, rfl, rfl⟩

theorem read_replaced_self (located : t.locate path = .ok l) :
    (t.put l content).read path = .ok content := by
  have found : (t.put l content).node? l =
      some (.file content) := by rw [node?_replaced there, if_pos rfl]
  simp only [read, locate_replaced there, located, bind, Except.bind, found]

theorem read_replaced_other (other : t.locate path ≠ .ok l) :
    (t.put l content).read path = t.read path := by
  unfold read
  rw [locate_replaced there]
  cases located : t.locate path with
  | error f => rfl
  | ok k =>
    have same : (t.put l content).node? k = t.node? k := by
      rw [node?_replaced there, if_neg]
      rintro rfl
      exact other located
    simp only [bind, Except.bind, same]

theorem names_replaced (path : String) : (t.put l content).names path = t.names path := by
  have listed : l ∈ t.nodes.keys := by
    unfold node? at there
    split at there
    · cases there
    · obtain ⟨e, found, -⟩ := Option.map_eq_some_iff.mp there
      obtain rfl : e.1 = l := by simpa using List.find?_some found
      exact List.mem_map_of_mem (List.mem_of_find?_eq_some found)
  have children (k : Location) : (t.put l content).children k = t.children k := by
    rw [children_eq, children_eq]
    congr 1
    exact Dictionary.keys_insert_of_mem _ _ listed
  unfold names
  rw [locate_replaced there]
  cases t.locate path with
  | error f => rfl
  | ok k =>
    simp only [bind, Except.bind, children]
    rw [node?_replaced there]
    by_cases here : l = k
    · rw [if_pos here, ← here, there]
    · rw [if_neg here]

/-- What is written to a file takes the place of its content. -/
theorem write_file (simple : bare path = path) (located : t.locate path = .ok l) :
    t.write path content = .ok (t.put l content) := by
  have found : t.locateNew path = .ok l := by simp [locateNew, simple, located]
  simp only [write, found, bind, Except.bind, there]
  rfl

end Replaced

theorem put_of_write {t' : Tree} (file : t.isFile path = true) (located : t.locate path = .ok l)
    (written : t.write path content = .ok t') :
    ∃ old, t.node? l = some (.file old) ∧ t' = t.put l content := by
  obtain ⟨old, there⟩ : ∃ old, t.node? l = some (.file old) := by
    unfold isFile get? at file
    rw [located] at file
    dsimp only at file
    split at file
    · exact ⟨_, ‹_›⟩
    · cases file
  obtain ⟨l', located', ⟨-, same⟩ | ⟨sink, -⟩⟩ := write_cases written
  · cases located.symm.trans located'
    exact ⟨old, there, same⟩
  · cases located.symm.trans located'
    cases there.symm.trans sink

end Tree

namespace Glob

variable {t : Tree} {l : Location} {old content : List UInt8} (there : t.node? l = some (.file old))

include there

theorem namesIn_replaced (dir pattern : String) (only : Bool) :
    namesIn (t.put l content) dir pattern only = namesIn t dir pattern only := by
  unfold namesIn
  simp only [Tree.names_replaced there, (Tree.kind_replaced there _).2.1]

theorem paths_replaced (pattern : String) : paths (t.put l content) pattern = paths t pattern := by
  have within (n : Nat) (only : Bool) (pattern : String) :
      pathsWithin (t.put l content) n only pattern = pathsWithin t n only pattern := by
    induction n generalizing only pattern with
    | zero => rfl
    | succ n ih =>
      unfold pathsWithin
      simp only [ih, namesIn_replaced there, (Tree.kind_replaced there _).2.1,
        (Tree.kind_replaced there _).2.2]
  exact within _ _ _

end Glob

/-! Where a path ends. -/

theorem parts_eq_append (path : String) : ∃ first, parts path = first ++ [baseName path] := by
  have whole := List.takeWhile_append_dropWhile (p := (· != '/')) (l := path.toList.reverse)
  have plain : ∀ c ∈ (path.toList.reverse.takeWhile (· != '/')).reverse, (c == '/') = false := by
    intro c member
    have kept := List.mem_takeWhile_imp (List.mem_reverse.mp member)
    simpa using kept
  have alone := List.splitOnP_eq_singleton plain
  have turned := congrArg List.reverse whole
  rw [List.reverse_append, List.reverse_reverse] at turned
  unfold parts baseName
  cases before : path.toList.reverse.dropWhile (· != '/') with
  | nil =>
    rw [before, List.reverse_nil, List.nil_append] at turned
    rw [turned] at alone ⊢
    refine ⟨[], ?_⟩
    rw [List.splitOn, alone]
    rfl
  | cons c rest =>
    have slash : c = '/' := by
      have head := List.head?_dropWhile_not (· != '/') path.toList.reverse
      simpa [before] using head
    rw [before, slash, List.reverse_cons, List.append_assoc, List.singleton_append] at turned
    refine ⟨(rest.reverse.splitOn '/').map String.ofList, ?_⟩
    rw [← List.map_singleton (f := String.ofList), ← List.map_append]
    congr 1
    conv_lhs => rw [← turned]
    rw [List.splitOn, List.splitOnP_append_cons _ _ (by simp), alone]
    rfl

theorem Tree.last_of_follow {t : Tree} {l l' : Location} {first : List String} {last : String}
    (named : last ≠ "" ∧ last ≠ "." ∧ last ≠ "..")
    (followed : t.follow l (first ++ [last]) = .ok l') :
    ∃ up, l' = last :: up := by
  rw [follow_append] at followed
  cases led : t.follow l first with
  | error c =>
    rw [led] at followed
    cases followed
  | ok k =>
    rw [led] at followed
    dsimp only [Except.bind] at followed
    unfold follow at followed
    split at followed
    · cases followed
    · rw [if_neg (by simp [named.1, named.2.1]), if_neg (by simp [named.2.2])] at followed
      split at followed
      · cases followed
      · cases followed
        exact ⟨k, rfl⟩
    · cases followed

/-- Where a path with this ending leads, there is a name with the ending. -/
theorem Tree.suffix_of_located {t : Tree} {path : String} {l : Location} {ending : List Char}
    (plain : '/' ∉ ending) (long : 2 < ending.length) (ends : ending <:+ path.toList)
    (located : t.locate path = .ok l) :
    ∃ up, l = baseName path :: up ∧ ending <:+ (baseName path).toList := by
  have kept := suffix_baseName plain ends
  have named (short : String) (bound : short.toList.length ≤ 2) : baseName path ≠ short := by
    intro same
    have length := kept.length_le
    rw [same] at length
    omega
  obtain ⟨first, split⟩ := parts_eq_append path
  have followed := (Tree.locate_eq_ok.mp located).2.2.2
  rw [split] at followed
  obtain ⟨up, rfl⟩ := last_of_follow ⟨named "" (by decide), named "." (by decide),
    named ".." (by decide)⟩ followed
  exact ⟨up, rfl, kept⟩

end TacBench.Files
