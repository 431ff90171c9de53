import TacBench.Files.Glob
import TacBench.Proofs.Loaded
import Mathlib.Data.List.Nodup
import Mathlib.Data.List.TakeWhile

/-! The code files of a directory: the paths that are found for them, and the names of the tests
that they hold. -/
namespace TacBench.Files

namespace Tree

variable {t : Tree} {l l' : Location} {path : String}

/-! Slashes at the end of a path lead nowhere else. -/

theorem follow_append (t : Tree) (l : Location) (first second : List String) :
    t.follow l (first ++ second) = (t.follow l first).bind fun l' => t.follow l' second := by
  induction first generalizing l with
  | nil => rfl
  | cons part rest ih =>
    simp only [List.cons_append, follow]
    split
    · rfl
    · split
      · exact ih l
      · split
        · exact ih _
        · split
          · rfl
          · exact ih _
    · rfl

theorem follow_empty_parts {k : Nat} (followed : t.follow l (List.replicate k "") = .ok l') :
    l' = l := by
  induction k with
  | zero =>
    cases followed
    rfl
  | succ k ih =>
    rw [List.replicate_succ, follow] at followed
    split at followed
    · cases followed
    · exact ih (by simpa using followed)
    · cases followed

theorem splitOn_slashes (k : Nat) :
    (List.replicate k '/').splitOn '/' = List.replicate (k + 1) [] := by
  induction k with
  | zero => rfl
  | succ k ih =>
    rw [List.replicate_succ, List.splitOn_cons_eq_if_modifyHead, if_pos (by simp), ih]
    rfl

theorem parts_slashes (s : List Char) (k : Nat) :
    parts (String.ofList (s ++ List.replicate k '/')) = parts (String.ofList s) ++
      List.replicate k "" := by
  cases k with
  | zero => simp
  | succ k =>
    have split : (s ++ '/' :: List.replicate k '/').splitOn '/' = s.splitOn '/' ++
        List.replicate (k + 1) [] := by
      rw [← splitOn_slashes k]
      exact List.splitOnP_append_cons s _ (by simp)
    rw [List.replicate_succ, parts, String.toList_ofList, split, List.map_append,
      List.map_replicate, parts, String.toList_ofList]

theorem bare_append (path : String) :
    ∃ k, path.toList = (bare path).toList ++ List.replicate k '/' := by
  have whole := List.takeWhile_append_dropWhile (p := (· == '/')) (l := path.toList.reverse)
  have slashes : path.toList.reverse.takeWhile (· == '/') =
      List.replicate (path.toList.reverse.takeWhile (· == '/')).length '/' := by
    refine List.eq_replicate_iff.mpr ⟨rfl, fun c member => ?_⟩
    simpa using List.mem_takeWhile_imp member
  unfold bare
  dsimp only
  split
  · exact ⟨0, by simp⟩
  · refine ⟨(path.toList.reverse.takeWhile (· == '/')).length, ?_⟩
    have turned := congrArg List.reverse whole
    rw [List.reverse_append, List.reverse_reverse, slashes, List.reverse_replicate] at turned
    rw [String.toList_ofList]
    exact turned.symm

theorem locate_eq_ok : t.locate path = .ok l ↔
    '\x00' ∉ path.toList ∧ path ≠ "" ∧ path.utf8ByteSize ≤ pathBound ∧
      t.follow (if isAbsolute path then [] else t.home) (parts path) = .ok l := by
  have mapped {e : Except Cause Location} : e.mapError (fun c => (⟨c, path⟩ : Fault)) = .ok l ↔
      e = .ok l := by
    cases e <;> simp [Except.mapError]
  rw [locate, mapped, reach]
  split
  · rename_i null
    simp_all
  · split
    · simp_all
    · split
      · rename_i long
        exact iff_of_false nofun fun accepted => absurd accepted.2.2.1 (Nat.not_le.mpr long)
      · simp_all

theorem isAbsolute_append {start rest : List Char} (some : start ≠ []) :
    isAbsolute (String.ofList (start ++ rest)) = isAbsolute (String.ofList start) := by
  simp only [isAbsolute, String.toList_ofList]
  cases start with
  | nil => exact absurd rfl some
  | cons c r => rfl

theorem bare_ne_nil (some : path ≠ "") : (bare path).toList ≠ [] := by
  unfold bare
  dsimp only
  split
  · simpa using some
  · rename_i kept
    simpa using kept

theorem locate_bare (located : t.locate path = .ok l) : t.locate (bare path) = .ok l := by
  rw [locate_eq_ok] at located ⊢
  obtain ⟨plain, some, short, followed⟩ := located
  obtain ⟨k, whole⟩ := bare_append path
  have kept := bare_ne_nil some
  have same : path = bare path ++ String.ofList (List.replicate k '/') := by
    rw [← String.toList_inj, String.toList_append, String.toList_ofList, whole]
  refine ⟨?_, ?_, ?_, ?_⟩
  · intro null
    exact plain (whole ▸ List.mem_append_left _ null)
  · intro empty
    exact kept (by rw [empty]; rfl)
  · rw [same, String.utf8ByteSize_append] at short
    omega
  · have again : path = String.ofList ((bare path).toList ++ List.replicate k '/') := by
      rw [← whole, String.ofList_toList]
    rw [again, isAbsolute_append kept, parts_slashes, String.ofList_toList,
      follow_append] at followed
    obtain ⟨l', followed, ended⟩ := bind_eq_ok followed
    rw [followed, follow_empty_parts ended]

theorem names_of_isDirectory (directory : t.isDirectory path = true) :
    ∃ l, t.locate path = .ok l ∧ t.node? l = some .directory := by
  unfold isDirectory get? at directory
  split at directory
  · rename_i l located
    exact ⟨l, located, by simpa using directory⟩
  · cases directory

theorem names_eq_ok (located : t.locate path = .ok l) (directory : t.node? l = some .directory) :
    t.names path = .ok (t.children l) := by
  rw [names, located]
  simp [bind, Except.bind, directory]

end Tree

/-! A name below a directory. -/

section Join

variable {base name : String}

/-- A path is joined with one slash in between, which the first may bring along. -/
theorem join_plain (some : base ≠ "") (plain : '/' ∉ name.toList) :
    ∃ start, (join base name).toList = start ++ '/' :: name.toList ∧
      (base.toList = start ++ ['/'] ∨ base.toList = start ∧ start.getLast? ≠ .some '/') := by
  have relative : isAbsolute name = false := by
    rw [isAbsolute, Bool.eq_false_iff, Ne, beq_iff_eq]
    exact fun first => plain (List.mem_of_head? first)
  have filled : base.isEmpty = false := by simpa using some
  simp only [join, relative, filled, Bool.false_or, Bool.false_eq_true, if_false, beq_iff_eq]
  split
  · rename_i ends
    obtain ⟨start, same⟩ := List.getLast?_eq_some_iff.mp ends
    exact ⟨start, by simp [same], .inl same⟩
  · rename_i ends
    exact ⟨base.toList, by simp, .inr ⟨rfl, ends⟩⟩

theorem plain_reverse (plain : '/' ∉ name.toList) :
    ∀ c ∈ name.toList.reverse, (c != '/') = true := by
  intro c member
  rw [bne_iff_ne]
  rintro rfl
  exact plain (List.mem_reverse.mp member)

theorem baseName_join (some : base ≠ "") (plain : '/' ∉ name.toList) :
    baseName (join base name) = name := by
  obtain ⟨start, joined, -⟩ := join_plain some plain
  rw [baseName, joined, List.reverse_append, List.reverse_cons, List.append_assoc,
    List.takeWhile_append_of_pos (plain_reverse plain)]
  simp

theorem directory_join (some : base ≠ "") (plain : '/' ∉ name.toList) :
    directory (join base name) = Tree.bare base := by
  obtain ⟨start, joined, shape⟩ := join_plain some plain
  have head : ((join base name).toList.reverse.dropWhile (· != '/')).reverse = start ++ ['/'] := by
    rw [joined, List.reverse_append, List.reverse_cons, List.append_assoc,
      List.dropWhile_append_of_pos (plain_reverse plain)]
    simp
  have slashes (l : List Char) : l.all (· == '/') = true ↔
      (l.reverse.dropWhile (· == '/')).isEmpty = true := by
    rw [List.isEmpty_iff, List.dropWhile_eq_nil_iff, List.all_eq_true]
    simp
  unfold directory Tree.bare
  dsimp only
  rw [head]
  rcases shape with same | ⟨same, ends⟩
  · have whole : String.ofList (start ++ ['/']) = base := by rw [← same, String.ofList_toList]
    rw [same, whole]
    by_cases only : (start ++ ['/']).all (· == '/') = true
    · rw [if_pos only, if_pos ((slashes _).mp only)]
    · rw [if_neg only, if_neg (fun empty => only ((slashes _).mpr empty))]
  · have filled : start ≠ [] := by
      rw [← same]
      simpa using some
    obtain ⟨init, c, rfl⟩ := (List.eq_nil_or_concat start).resolve_left filled
    have other : c ≠ '/' := by simpa using ends
    have kept : (init.concat c).reverse.dropWhile (· == '/') = (init.concat c).reverse := by
      simp [other]
    rw [same, kept, if_neg (by simp [other]), if_neg (by simp), List.reverse_append,
      List.reverse_singleton, List.singleton_append, List.dropWhile_cons_of_pos (by simp), kept]

end Join

/-! The pattern for code files. -/

namespace Glob

/-- Characters stand for themselves, and a star in front of them for any beginning. -/
theorem accepts_chars (cs s : List Char) : accepts (cs.map .char) s = true ↔ s = cs := by
  induction cs generalizing s with
  | nil => simp [accepts]
  | cons c cs ih =>
    cases s with
    | nil => simp [accepts]
    | cons d s => simp [accepts, Item.accepts, ih]

theorem accepts_many (cs s : List Char) : accepts (.many :: cs.map .char) s = true ↔ cs <:+ s := by
  induction s with
  | nil =>
    rw [accepts, accepts_chars, List.suffix_nil]
    exact eq_comm
  | cons c s ih =>
    rw [accepts, Bool.or_eq_true, ih, accepts_chars, List.suffix_cons_iff]
    exact or_congr_left eq_comm

theorem matchesName_code (name : String) :
    matchesName "*.code" name = true ↔ ".code".toList <:+ name.toList := by
  have items : items "*.code" = .many :: ".code".toList.map .char := by decide
  rw [matchesName, items, accepts_many]

theorem namesIn_code {t : Tree} {dir : String} {l : Location} (named : dir ≠ "")
    (located : t.locate dir = .ok l) (directory : t.node? l = some .directory) :
    namesIn t dir "*.code" false = (t.children l).filter fun n =>
    !isHidden n && matchesName "*.code" n := by
  have filled : dir.isEmpty = false := by simpa using named
  have visible : isHidden "*.code" = false := by decide
  simp only [namesIn, filled, Tree.names_eq_ok located directory, visible,
    Bool.false_eq_true, if_false, Bool.false_or, Bool.not_false, Bool.true_or, Bool.and_true]

theorem paths_code {t : Tree} {dir : String} {l : Location} (plain : isPattern dir = false)
    (located : t.locate dir = .ok l) (directory : t.node? l = some .directory) :
    paths t (join dir "*.code") = ((t.children l).filter fun n =>
      !isHidden n && matchesName "*.code" n).map
      (join (Tree.bare dir)) := by
  have some : dir ≠ "" := (Tree.locate_eq_ok.mp located).2.1
  have simple : '/' ∉ "*.code".toList := by decide
  have located' := Tree.locate_bare located
  have some' : Tree.bare dir ≠ "" := (Tree.locate_eq_ok.mp located').2.1
  have filled : (Tree.bare dir).isEmpty = false := by simpa using some'
  have whole : isPattern (join dir "*.code") = true := by
    obtain ⟨start, joined, -⟩ := join_plain some simple
    rw [isPattern, joined, List.any_append]
    simp
  have above : isPattern (Tree.bare dir) = false := by
    obtain ⟨k, same⟩ := Tree.bare_append dir
    rw [isPattern, same, List.any_append, Bool.or_eq_false_iff] at plain
    exact plain.1
  have last : isPattern "*.code" = true := by decide
  rw [paths, pathsWithin, directory_join some simple, baseName_join some simple]
  simp only [whole, filled, above, last, namesIn_code some' located' directory, Bool.not_true,
    Bool.false_eq_true, if_false, Bool.and_false, if_true, List.flatMap_singleton]

end Glob

/-- No two nodes stand at one place, and no name holds a slash. -/
structure Tree.Proper (t : Tree) : Prop where
  once : t.nodes.keys.Nodup
  plain : ∀ l ∈ t.nodes.keys, ∀ name ∈ l, '/' ∉ name.toList

namespace Tree

variable {t : Tree} {l : Location} {name : String}

theorem mem_children : name ∈ t.children l ↔ name :: l ∈ t.nodes.keys := by
  rw [children, List.mem_filterMap, Dictionary.keys, List.mem_map]
  constructor
  · rintro ⟨⟨k, node⟩, member, chosen⟩
    refine ⟨(k, node), member, ?_⟩
    dsimp only at chosen ⊢
    split at chosen
    · split at chosen
      · cases chosen
        simp_all
      · cases chosen
    · cases chosen
  · rintro ⟨⟨k, node⟩, member, rfl⟩
    exact ⟨_, member, by simp⟩

theorem Proper.nodup_children (proper : t.Proper) (l : Location) : (t.children l).Nodup := by
  have once := proper.once
  rw [Dictionary.keys, List.nodup_iff_pairwise_ne, List.pairwise_map] at once
  rw [children, List.nodup_iff_pairwise_ne, List.pairwise_filterMap]
  refine once.imp ?_
  rintro ⟨k, node⟩ ⟨k', node'⟩ differ name chosen name' chosen' rfl
  dsimp only at chosen chosen' differ
  split at chosen
  · split at chosen
    · split at chosen'
      · split at chosen'
        · cases chosen
          cases chosen'
          simp_all
        · cases chosen'
      · cases chosen'
    · cases chosen
  · cases chosen

theorem Proper.plain_child (proper : t.Proper) (child : name ∈ t.children l) : '/' ∉ name.toList :=
  proper.plain _ (mem_children.mp child) name List.mem_cons_self

end Tree

/-- The directory holds a code file for a test of this name. -/
def CodeName (t : Tree) (l : Location) (name : String) : Prop :=
  name ++ ".code" ∈ t.children l ∧ Glob.isHidden (name ++ ".code") = false

theorem stem_code {name : String} (visible : Glob.isHidden (name ++ ".code") = false) :
    stem (name ++ ".code") = name := by
  have all : (name ++ ".code").toList = name.toList ++ '.' :: "code".toList := String.toList_append
  have first : ∀ c r, (name ++ ".code").toList = c :: r → (c == '.') = false := by
    intro c r same
    simpa [Glob.isHidden, same] using visible
  have whole : (name ++ ".code").toList.dropWhile (· == '.') = (name ++ ".code").toList := by
    cases same : (name ++ ".code").toList with
    | nil => rfl
    | cons c r => rw [List.dropWhile_cons_of_neg (by simp [first c r same])]
  have dots : (name ++ ".code").toList.takeWhile (· == '.') = [] := by
    cases same : (name ++ ".code").toList with
    | nil => rfl
    | cons c r => rw [List.takeWhile_cons_of_neg (by simp [first c r same])]
  have ending : ∀ c ∈ "code".toList.reverse, (c != '.') = true := List.all_eq_true.mp (by decide)
  simp only [stem, whole, dots]
  rw [if_pos (by simp [all]), all, List.reverse_append, List.reverse_cons, List.append_assoc,
    List.dropWhile_append_of_pos ending]
  simp

theorem mem_filter_code {t : Tree} {l : Location} {file : String} :
    file ∈ (t.children l).filter (fun n => !Glob.isHidden n && Glob.matchesName "*.code" n) ↔
      ∃ name, file = name ++ ".code" ∧ CodeName t l name := by
  rw [List.mem_filter, Bool.and_eq_true, Bool.not_eq_true', Glob.matchesName_code]
  constructor
  · rintro ⟨child, visible, start, same⟩
    have named : file = String.ofList start ++ ".code" := by
      rw [← String.toList_inj, String.toList_append, String.toList_ofList, same]
    exact ⟨String.ofList start, named, named ▸ child, named ▸ visible⟩
  · rintro ⟨name, rfl, child, visible⟩
    refine ⟨child, visible, ?_⟩
    rw [String.toList_append]
    exact List.suffix_append _ _

end TacBench.Files
