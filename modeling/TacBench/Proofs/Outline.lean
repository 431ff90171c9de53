import TacBench.Editor.Outline

/-! Changes of an outline along a path of names, and how they combine. Changes of one item combine
to a change of that item, changes below one path to a change below that path, and new items stand
behind those that are there. Items beside each other keep different names. -/
namespace TacBench.Editor

/-- Changes what is below an item. -/
def Item.inside (f : Outline → Outline) (i : Item) : Item := { i with items := f i.items }

@[simp] theorem Item.name_inside (f : Outline → Outline) (i : Item) :
    (i.inside f).name = i.name := rfl

namespace Outline

/-- Changes the item of a name, which is made if there is none. -/
def alter (name : String) (f : Item → Item) : Outline → Outline
  | [] => [f { name }]
  | i :: rest => if i.name = name then f i :: rest else i :: alter name f rest

/-- Changes what is below the item at the end of a path. -/
def within (f : Outline → Outline) : List String → Outline → Outline
  | [], o => f o
  | name :: path, o => o.alter name (Item.inside (within f path))

/-- Removes the item of a name. -/
def without (name : String) (o : Outline) : Outline := o.eraseP (·.name = name)

variable {α : Type} {f g : Item → Item} {name : String} {o : Outline}
  {path : List String} {i : Item}

/-- No item of the outline has the name. -/
def Lacks (name : String) (o : Outline) : Prop := ∀ i ∈ o, i.name ≠ name

theorem alter_append_of_lacks (lacks : Lacks name o) (rest : Outline) :
    alter name f (o ++ rest) = o ++ alter name f rest := by
  induction o with
  | nil => rfl
  | cons i o ih =>
    rw [List.cons_append, alter, if_neg (lacks i List.mem_cons_self),
      ih fun j later => lacks j (List.mem_cons_of_mem i later)]
    rfl

theorem alter_of_lacks (lacks : Lacks name o) : alter name f o = o ++ [f { name }] := by
  have appended := alter_append_of_lacks (f := f) lacks []
  rwa [List.append_nil] at appended

theorem alter_cons_of_name (named : i.name = name) : alter name f (i :: o) = f i :: o :=
  if_pos named

theorem alter_alter (keeps : ∀ i, (g i).name = i.name) (o : Outline) :
    alter name f (alter name g o) = alter name (f ∘ g) o := by
  induction o with
  | nil => exact alter_cons_of_name (keeps _)
  | cons i o ih =>
    by_cases named : i.name = name
    · rw [alter_cons_of_name named, alter_cons_of_name named,
        alter_cons_of_name ((keeps i).trans named)]
      rfl
    · simp only [alter, if_neg named, ih]

/-- Items of new names are put behind the others in order. -/
theorem foldl_alter_of_lacks {f : α → Item → Item} {names : α → String} {xs : List α}
    (keeps : ∀ x i, (f x i).name = i.name) (distinct : (xs.map names).Nodup)
    (lacks : ∀ x ∈ xs, Lacks (names x) o) :
    xs.foldl (fun o x => alter (names x) (f x) o) o = o ++ xs.map fun x =>
    f x { name := names x } := by
  induction xs generalizing o with
  | nil => exact (List.append_nil o).symm
  | cons x xs ih =>
    obtain ⟨once, distinct⟩ := List.nodup_cons.mp distinct
    rw [List.foldl_cons, alter_of_lacks (lacks x List.mem_cons_self), ih distinct,
      List.append_assoc]
    · rfl
    · intro y later i member
      rcases List.mem_append.mp member with there | new
      · exact lacks y (List.mem_cons_of_mem x later) i there
      · rw [List.mem_singleton.mp new, keeps]
        intro same
        exact once (List.mem_map.mpr ⟨y, later, same.symm⟩)

theorem without_cons_of_name (named : i.name = name) : without name (i :: o) = o :=
  List.eraseP_cons_of_pos (decide_eq_true named)

theorem without_cons_of_name_ne (other : i.name ≠ name) :
    without name (i :: o) = i :: without name o :=
  List.eraseP_cons_of_neg (by simpa using other)

theorem without_append_of_lacks (lacks : Lacks name o) (rest : Outline) :
    without name (o ++ rest) = o ++ without name rest :=
  List.eraseP_append_right _ fun i member => by simpa using lacks i member

/-- An item that is made to be removed leaves no trace. -/
theorem without_alter (name : String) (o : Outline) :
    without name (alter name id o) = without name o := by
  induction o with
  | nil => exact without_cons_of_name rfl
  | cons i o ih =>
    by_cases named : i.name = name
    · rw [alter_cons_of_name named, id]
    · rw [alter, if_neg named, without_cons_of_name_ne named, without_cons_of_name_ne named, ih]

theorem within_cons (f : Outline → Outline) (name : String) (path : List String) (o : Outline) :
    within f (name :: path) o = alter name (Item.inside (within f path)) o := rfl

theorem within_within (f g : Outline → Outline) (path : List String) (o : Outline) :
    within f path (within g path o) = within (f ∘ g) path o := by
  induction path generalizing o with
  | nil => rfl
  | cons name path ih =>
    rw [within_cons, within_cons, alter_alter (Item.name_inside _), within_cons]
    congr 1
    funext i
    simp only [Function.comp_apply, Item.inside, ih]

theorem within_concat (f : Outline → Outline) (path : List String) (name : String) (o : Outline) :
    within f (path ++ [name]) o = within (alter name (Item.inside f)) path o := by
  induction path generalizing o with
  | nil => rfl
  | cons first path ih =>
    rw [List.cons_append, within_cons, within_cons]
    congr 1
    funext i
    simp only [Item.inside, ih]

theorem foldl_within (f : α → Outline → Outline) (g : Outline → Outline) (xs : List α)
    (path : List String) (o : Outline) :
    xs.foldl (fun o x => within (f x) path o) (within g path o) =
      within (fun o => xs.foldl (fun o x => f x o) (g o)) path o := by
  induction xs generalizing g with
  | nil => rfl
  | cons x xs ih =>
    rw [List.foldl_cons, within_within]
    exact ih (f x ∘ g)

/-- On every level the items have different names. -/
inductive Distinct : Outline → Prop
  | intro {o : Outline} (names : (o.map (·.name)).Nodup) (below : ∀ i ∈ o, Distinct i.items) :
      Distinct o

theorem Distinct.nil : Distinct [] := .intro List.nodup_nil (List.forall_mem_nil _)

theorem distinct_cons : Distinct (i :: o) ↔ Lacks i.name o ∧ Distinct i.items ∧ o.Distinct := by
  constructor
  · rintro ⟨names, below⟩
    obtain ⟨once, names⟩ := List.nodup_cons.mp names
    obtain ⟨first, below⟩ := List.forall_mem_cons.mp below
    refine ⟨fun j member same => once ?_, first, .intro names below⟩
    exact List.mem_map.mpr ⟨j, member, same⟩
  · rintro ⟨lacks, first, names, below⟩
    refine .intro (List.nodup_cons.mpr ⟨?_, names⟩) (List.forall_mem_cons.mpr ⟨first, below⟩)
    intro member
    obtain ⟨j, there, same⟩ := List.mem_map.mp member
    exact lacks j there same

theorem lacks_alter {other : String} (keeps : ∀ i, (f i).name = i.name) (different : name ≠ other)
    (lacks : Lacks other o) : Lacks other (alter name f o) := by
  induction o with
  | nil =>
    intro j member
    rw [List.mem_singleton.mp member, keeps]
    exact different
  | cons i o ih =>
    obtain ⟨first, rest⟩ := List.forall_mem_cons.mp lacks
    by_cases named : i.name = name
    · rw [alter_cons_of_name named]
      exact List.forall_mem_cons.mpr ⟨keeps i ▸ first, rest⟩
    · rw [alter, if_neg named]
      exact List.forall_mem_cons.mpr ⟨first, ih rest⟩

theorem Distinct.alter (keeps : ∀ i, (f i).name = i.name)
    (inside : ∀ i, Distinct i.items → Distinct (f i).items) (name : String)
    (distinct : o.Distinct) :
    (o.alter name f).Distinct := by
  induction o with
  | nil => exact distinct_cons.mpr ⟨List.forall_mem_nil _, inside _ .nil, .nil⟩
  | cons i o ih =>
    obtain ⟨lacks, first, rest⟩ := distinct_cons.mp distinct
    by_cases named : i.name = name
    · rw [alter_cons_of_name named]
      exact distinct_cons.mpr ⟨(keeps i).symm ▸ lacks, inside i first, rest⟩
    · rw [Outline.alter, if_neg named]
      exact distinct_cons.mpr ⟨lacks_alter keeps (Ne.symm named) lacks, first, ih rest⟩

theorem Distinct.within {f : Outline → Outline} (preserves : ∀ o, Distinct o → Distinct (f o))
    (path : List String) (distinct : o.Distinct) : (o.within f path).Distinct := by
  induction path generalizing o with
  | nil => exact preserves o distinct
  | cons name path ih => exact distinct.alter (Item.name_inside _) (fun _ items => ih items) name

theorem Distinct.without (name : String) (distinct : o.Distinct) : (o.without name).Distinct := by
  obtain ⟨names, below⟩ := distinct
  have kept : (o.without name).Sublist o := List.eraseP_sublist
  exact .intro ((kept.map _).nodup names) fun i member => below i (kept.subset member)

end Outline
end TacBench.Editor
