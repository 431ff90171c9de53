import TacBench.Proofs.Outline

/-! Items are found. While items beside each other have different names, the look-up of an item
among all items of its name comes to the item at the end of its path, whatever the order in which
the finder lists them: each operation on a looked-up item is the change along the path of names. -/
namespace TacBench.Editor

open Outline

/-- The finder lists the spots of all items of a name and nothing else, in whatever order. -/
def Finder.Lawful (find : Finder) : Prop :=
  ∀ name o spot, spot ∈ find name o ↔ ∃ i, itemAt? spot o = some i ∧ i.name = name

namespace Outline

variable {f g : Outline → Outline} {o o' : Outline} {rows : List Nat} {row : Nat}
  {spot : Spot} {i : Item} {name : String} {path : List String} {find : Finder}

/-- Every row leads to an item. -/
def Reaches : List Nat → Outline → Prop
  | [], _ => True
  | row :: rows, o => ∃ i, o[row]? = some i ∧ Reaches rows i.items

theorem reaches_nil (o : Outline) : Reaches [] o := trivial

theorem changeBelow_cons (f : Outline → Outline) (row : Nat) (rows : List Nat) (o : Outline) :
    changeBelow f (row :: rows) o = o.modify row (Item.inside (changeBelow f rows)) := rfl

theorem below_cons (found : o[row]? = some i) (rows : List Nat) :
    below (row :: rows) o = below rows i.items := by
  rw [below, found]
  rfl

theorem modify_congr {f g : Item → Item} (same : ∀ i, o[row]? = some i → f i = g i) :
    o.modify row f = o.modify row g := by
  apply List.ext_getElem?
  intro n
  rw [List.getElem?_modify, List.getElem?_modify]
  by_cases here : row = n
  · subst here
    cases found : o[row]? with
    | none => rfl
    | some i => simpa using same i found
  · simp only [here, ↓reduceIte]

/-- A change below rows is decided by what it does to the items there. -/
theorem changeBelow_congr (same : f (below rows o) = g (below rows o)) :
    changeBelow f rows o = changeBelow g rows o := by
  induction rows generalizing o with
  | nil => exact same
  | cons row rows ih =>
    refine modify_congr fun i found => ?_
    rw [below_cons found] at same
    rw [ih same]

theorem changeBelow_id (rows : List Nat) (o : Outline) : changeBelow id rows o = o := by
  induction rows generalizing o with
  | nil => rfl
  | cons row rows ih =>
    have same : Item.inside (changeBelow id rows) = id := by
      funext i
      rw [Item.inside, ih]
      cases i
      rfl
    rw [changeBelow_cons, same, List.modify_id]

theorem changeBelow_changeBelow (f g : Outline → Outline) (rows : List Nat) (o : Outline) :
    changeBelow f rows (changeBelow g rows o) = changeBelow (f ∘ g) rows o := by
  induction rows generalizing o with
  | nil => rfl
  | cons row rows ih =>
    have same : Item.inside (changeBelow f rows) ∘ Item.inside (changeBelow g rows) =
        Item.inside (changeBelow (f ∘ g) rows) := by
      funext i
      simp only [Function.comp_apply, Item.inside, ih]
    rw [changeBelow_cons, changeBelow_cons, changeBelow_cons, List.modify_modify_eq, same]

theorem changeBelow_concat (f : Outline → Outline) (rows : List Nat) (row : Nat) (o : Outline) :
    changeBelow f (rows ++ [row]) o = changeBelow (·.modify row (Item.inside f)) rows o := by
  induction rows generalizing o with
  | nil => rfl
  | cons first rows ih =>
    rw [List.cons_append, changeBelow_cons, changeBelow_cons]
    congr 1
    funext i
    simp only [Item.inside, ih]

theorem below_changeBelow (reaches : Reaches rows o) (f : Outline → Outline) :
    below rows (changeBelow f rows o) = f (below rows o) := by
  induction rows generalizing o with
  | nil => rfl
  | cons row rows ih =>
    obtain ⟨i, found, reaches⟩ := reaches
    have changed : (changeBelow f (row :: rows) o)[row]? =
        some (i.inside (changeBelow f rows)) := by
      rw [changeBelow_cons, List.getElem?_modify_eq, found]
      rfl
    rw [below_cons changed, below_cons found]
    exact ih reaches

theorem reaches_rows (found : itemAt? spot o = some i) : Reaches spot.rows o := by
  obtain ⟨parent, row⟩ := spot
  induction parent generalizing o with
  | nil => exact ⟨i, found, trivial⟩
  | cons first parent ih =>
    rw [itemAt?] at found
    cases held : o[first]? with
    | none =>
      rw [below, held] at found
      cases found
    | some j =>
      rw [below_cons held] at found
      exact ⟨j, held, ih found⟩

theorem distinct_below (distinct : o.Distinct) (rows : List Nat) : (o.below rows).Distinct := by
  induction rows generalizing o with
  | nil => exact distinct
  | cons row rows ih =>
    cases found : o[row]? with
    | none =>
      rw [below, found]
      exact .nil
    | some i =>
      obtain ⟨-, inside⟩ := distinct
      rw [below_cons found]
      exact ih (inside i (List.mem_of_getElem? found))

theorem names_modify (f : Outline → Outline) (row : Nat) (o : Outline) :
    (o.modify row (Item.inside f)).map (·.name) = o.map (·.name) := by
  induction o generalizing row with
  | nil => rw [List.modify_nil]
  | cons i o ih =>
    cases row with
    | zero => rfl
    | succ row => rw [List.modify_succ_cons, List.map_cons, List.map_cons, ih]

theorem Distinct.changeBelow (distinct : o.Distinct) (changed : (f (o.below rows)).Distinct) :
    (o.changeBelow f rows).Distinct := by
  induction rows generalizing o with
  | nil => exact changed
  | cons row rows ih =>
    obtain ⟨names, inside⟩ := distinct
    refine .intro (names_modify _ row o ▸ names) fun j member => ?_
    obtain ⟨n, at_n⟩ := List.mem_iff_getElem?.mp member
    rw [changeBelow_cons, List.getElem?_modify] at at_n
    cases found : o[n]? with
    | none =>
      rw [found] at at_n
      cases at_n
    | some i =>
      have items := inside i (List.mem_of_getElem? found)
      rw [found] at at_n
      by_cases here : row = n
      · subst here
        rw [below_cons found] at changed
        simp only [↓reduceIte, Option.map_eq_map, Option.map_some, Option.some.injEq] at at_n
        subst at_n
        exact ih items changed
      · simp only [here, ↓reduceIte, Option.map_eq_map, Option.map_some, Option.some.injEq] at at_n
        exact at_n ▸ items

/-! The item of a name stands in one row only. -/

theorem alter_eq_modify (distinct : o.Distinct) (found : o[row]? = some i) (named : i.name = name)
    (f : Item → Item) : alter name f o = o.modify row f := by
  induction o generalizing row with
  | nil => cases found
  | cons j o ih =>
    obtain ⟨lacks, -, rest⟩ := distinct_cons.mp distinct
    cases row with
    | zero =>
      obtain rfl : j = i := Option.some.inj found
      rw [alter_cons_of_name named, List.modify_zero_cons]
    | succ row =>
      have later : o[row]? = some i := found
      have other : j.name ≠ name :=
        fun same => lacks i (List.mem_of_getElem? later) (named.trans same.symm)
      rw [alter, if_neg other, ih rest later, List.modify_succ_cons]

theorem without_eq_eraseIdx (distinct : o.Distinct) (found : o[row]? = some i)
    (named : i.name = name) :
    without name o = o.eraseIdx row := by
  induction o generalizing row with
  | nil => cases found
  | cons j o ih =>
    obtain ⟨lacks, -, rest⟩ := distinct_cons.mp distinct
    cases row with
    | zero =>
      obtain rfl : j = i := Option.some.inj found
      exact without_cons_of_name named
    | succ row =>
      have later : o[row]? = some i := found
      have other : j.name ≠ name :=
        fun same => lacks i (List.mem_of_getElem? later) (named.trans same.symm)
      rw [without_cons_of_name_ne other, ih rest later, List.eraseIdx_cons_succ]

theorem alter_id_of_item (distinct : o.Distinct) (found : o[row]? = some i)
    (named : i.name = name) :
    alter name id o = o := by
  rw [alter_eq_modify distinct found named, List.modify_id]

/-- A look-up from rows along a path: the item is there, and a change beside it is a change along
the path. -/
structure Located (rows : List Nat) (path : List String) (name : String) (o : Outline) (spot : Spot)
    (o' : Outline) : Prop where
  there : ∃ i, o'.itemAt? spot = some i ∧ i.name = name
  distinct : o'.Distinct
  acts : ∀ f, o'.changeBelow f spot.parent = o.changeBelow (within (f ∘ alter name id) path) rows

theorem Located.changeAt (located : Located rows path name o spot o') {f : Item → Item} :
    o'.changeAt f spot = o.changeBelow (within (alter name f) path) rows := by
  obtain ⟨i, found, named⟩ := located.there
  have one : alter name f ∘ alter name id = alter name f :=
    funext fun l => alter_alter (fun _ => rfl) l
  have same := alter_eq_modify (distinct_below located.distinct spot.parent) found named f
  calc o'.changeAt f spot
    _ = o'.changeBelow (alter name f) spot.parent := changeBelow_congr same.symm
    _ = o.changeBelow (within (alter name f) path) rows := by rw [located.acts, one]

theorem Located.removeAt (located : Located rows path name o spot o') :
    o'.removeAt spot = o.changeBelow (within (without name) path) rows := by
  obtain ⟨i, found, named⟩ := located.there
  have one : without name ∘ alter name id = without name := funext (without_alter name)
  have same := without_eq_eraseIdx (distinct_below located.distinct spot.parent) found named
  calc o'.removeAt spot
    _ = o'.changeBelow (without name) spot.parent := changeBelow_congr same.symm
    _ = o.changeBelow (within (without name) path) rows := by rw [located.acts, one]

theorem Located.changeBelow (located : Located rows path name o spot o') (f : Outline → Outline) :
    o'.changeBelow f spot.rows = o.changeBelow (within f (path ++ [name])) rows := by
  rw [Spot.rows, changeBelow_concat]
  refine located.changeAt.trans ?_
  congr 1
  funext l
  rw [within_concat]

/-- One level of a look-up. -/
theorem child_located (lawful : find.Lawful) (distinct : o.Distinct) (reaches : Reaches rows o)
    (name : String) :
    Located rows [] name o (o.child find rows name).1 (o.child find rows name).2 := by
  unfold child
  split
  · rename_i spot last
    obtain ⟨listed, same⟩ := List.mem_filter.mp (List.mem_of_getLast? last)
    obtain ⟨i, found, named⟩ := (lawful name o spot).mp listed
    obtain rfl : spot.parent = rows := of_decide_eq_true same
    refine ⟨⟨i, found, named⟩, distinct, fun f => changeBelow_congr ?_⟩
    rw [within, Function.comp_apply, alter_id_of_item (distinct_below distinct _) found named]
  · rename_i none
    have nowhere := List.filter_eq_nil_iff.mp (List.getLast?_eq_none_iff.mp none)
    have lacks : Lacks name (o.below rows) := by
      intro i member named
      obtain ⟨row, found⟩ := List.mem_iff_getElem?.mp member
      exact nowhere ⟨rows, row⟩ ((lawful name o _).mpr ⟨i, found, named⟩) (decide_eq_true rfl)
    have added : alter name id (o.below rows) = o.below rows ++ [{ name := name }] :=
      alter_of_lacks lacks
    refine ⟨⟨{ name := name }, ?_, rfl⟩, distinct.changeBelow ?_, fun f => ?_⟩
    · rw [itemAt?, below_changeBelow reaches, List.getElem?_concat_length]
    · exact added ▸ (distinct_below distinct rows).alter (fun _ => rfl) (fun _ items => items) name
    · rw [changeBelow_changeBelow]
      refine changeBelow_congr ?_
      rw [within, Function.comp_apply, Function.comp_apply, added]

theorem descend_located (lawful : find.Lawful) (distinct : o.Distinct) (reaches : Reaches rows o)
    (path : List String) (name : String) :
    Located rows path name o (descend find rows path name o).1
    (descend find rows path name o).2 := by
  induction path generalizing rows o with
  | nil => exact child_located lawful distinct reaches name
  | cons first path ih =>
    have level := child_located lawful distinct reaches first
    obtain ⟨i, found, -⟩ := level.there
    obtain ⟨there, distinct, acts⟩ := ih level.distinct (reaches_rows found)
    exact ⟨there, distinct, fun f => (acts f).trans (level.changeBelow _)⟩

/-! What the operations do on an outline whose items have different names beside each other. -/

section Operations

variable (lawful : find.Lawful) (distinct : o.Distinct)
include lawful distinct

theorem getItem_located (path : List String) (name : String) :
    Located [] path name o (o.getItem find path name).1 (o.getItem find path name).2 :=
  descend_located lawful distinct (reaches_nil o) path name

theorem getItem_eq (path : List String) (name : String) :
    (o.getItem find path name).2 = within (alter name id) path o := by
  have made := (getItem_located lawful distinct path name).acts id
  rwa [changeBelow_id] at made

theorem set_eq (path : List String) (name : String) (value kind : Json) :
    o.set find path name value kind = within (alter name ({ · with value, kind })) path o :=
  (getItem_located lawful distinct path name).changeAt

theorem clearBelow_eq (path : List String) (name : String) :
    o.clearBelow find path name = within (fun _ => []) (path ++ [name]) o :=
  (getItem_located lawful distinct path name).changeBelow _

theorem remove_eq (path : List String) (name : String) :
    o.remove find path name = within (without name) path o :=
  (getItem_located lawful distinct path name).removeAt

end Operations

end Outline

/-! Searching depth first finds every item. -/

namespace Finder

variable {i : Item} {o : Outline} {s : Spot} {name : String}

theorem itemAt?_afterFirst (s : Spot) (i : Item) (o : Outline) :
    itemAt? s.afterFirst (i :: o) = itemAt? s o := by
  obtain ⟨parent, row⟩ := s
  cases parent <;> rfl

/-- An item is the first one, or below the first one, or among the others. -/
theorem spot_cases (s : Spot) :
    s = ⟨[], 0⟩ ∨ (∃ below : Spot, s = below.underFirst) ∨ ∃ later :
    Spot, s = later.afterFirst := by
  obtain ⟨parent, row⟩ := s
  cases parent with
  | nil =>
    cases row with
    | zero => exact .inl rfl
    | succ row => exact .inr (.inr ⟨⟨[], row⟩, rfl⟩)
  | cons first parent =>
    cases first with
    | zero => exact .inr (.inl ⟨⟨parent, row⟩, rfl⟩)
    | succ first => exact .inr (.inr ⟨⟨first :: parent, row⟩, rfl⟩)

mutual

theorem mem_fromItem (name : String) (i : Item) (s : Spot) :
    s ∈ fromItem name i ↔ s = ⟨[], 0⟩ ∧ i.name = name ∨
      ∃ below : Spot, s = below.underFirst ∧ ∃ j, itemAt? below i.items = some j ∧
        j.name = name := by
  cases i with
  | mk own value kind items =>
    have first : s ∈ (if own = name then [⟨[], 0⟩] else [] : List Spot) ↔ s = ⟨[], 0⟩ ∧
        own = name := by
      split <;> simp_all
    rw [fromItem, List.mem_append, first, List.mem_map]
    simp only [mem_depthFirst name items]
    refine or_congr_right (exists_congr fun below => ?_)
    rw [and_comm, eq_comm]

theorem mem_depthFirst (name : String) (o : Outline) (s : Spot) :
    s ∈ depthFirst name o ↔ ∃ i, itemAt? s o = some i ∧ i.name = name := by
  cases o with
  | nil =>
    obtain ⟨parent, row⟩ := s
    cases parent <;> simp [depthFirst, itemAt?, below]
  | cons i rest =>
    rw [depthFirst, List.mem_append, mem_fromItem name i, List.mem_map]
    simp only [mem_depthFirst name rest]
    constructor
    · rintro ((⟨rfl, named⟩ | ⟨below, rfl, found⟩) | ⟨beside, found, rfl⟩)
      · exact ⟨i, rfl, named⟩
      · exact found
      · rwa [itemAt?_afterFirst]
    · intro found
      rcases spot_cases s with rfl | ⟨below, rfl⟩ | ⟨beside, rfl⟩
      · obtain ⟨j, here, named⟩ := found
        cases here
        exact .inl (.inl ⟨rfl, named⟩)
      · exact .inl (.inr ⟨below, rfl, found⟩)
      · rw [itemAt?_afterFirst] at found
        exact .inr ⟨beside, found, rfl⟩

end

theorem depthFirst_lawful : Lawful depthFirst := mem_depthFirst

end Finder
end TacBench.Editor
