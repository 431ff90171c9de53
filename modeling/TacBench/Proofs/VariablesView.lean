import TacBench.Editor.DebugPanel
import TacBench.Proofs.Declarations
import TacBench.Proofs.ItemLookup

/-! The view of the variables shows the machine it is given and nothing else. Whatever machines have
been shown before, the outline is the one that the last of them has on its own: the variables of
each frame by name, the data stack and the frame stack from the top. -/
namespace TacBench

namespace Machine

/-- Every frame has each of its names once. -/
def Orderly (m : Machine) : Prop := ∀ f ∈ m.frames, f.keys.Nodup

instance (m : Machine) : Decidable m.Orderly :=
  inferInstanceAs (Decidable (∀ f ∈ m.frames, f.keys.Nodup))

/-- Every value of the machine has a text. -/
structure Readable (m : Machine) : Prop where
  inFrames : ∀ f ∈ m.frames, ∀ e ∈ f, ∃ text, e.2.text = .ok text
  onStack : ∀ v ∈ m.stack, ∃ text, v.text = .ok text

theorem text_eq_ok_iff {v : Value} : v.text.toOption.isSome = true ↔ ∃ text, v.text = .ok text := by
  cases v.text <;> simp [Except.toOption]

instance (m : Machine) : Decidable m.Readable :=
  decidable_of_iff ((∀ f ∈ m.frames, ∀ e ∈ f, e.2.text.toOption.isSome = true) ∧
      ∀ v ∈ m.stack, v.text.toOption.isSome = true)
    ⟨fun texts => ⟨fun f inside e member => text_eq_ok_iff.mp (texts.1 f inside e member),
        fun v member => text_eq_ok_iff.mp (texts.2 v member)⟩,
      fun readable =>
        ⟨fun f inside e member => text_eq_ok_iff.mpr (readable.inFrames f inside e member),
        fun v member => text_eq_ok_iff.mpr (readable.onStack v member)⟩⟩

theorem local_mem_frames {m : Machine} {f : Frame} (member : f ∈ m.locals) : f ∈ m.frames := by
  simp [frames, member]

theorem temporary_mem_frames (m : Machine) : m.temp.getD [] = [] ∨ m.temp.getD [] ∈ m.frames := by
  cases held : m.temp with
  | none => exact .inl rfl
  | some f => exact .inr (by simp [frames, held])

theorem innermost_mem_frames (m : Machine) :
    m.locals.head?.getD [] = [] ∨ m.locals.head?.getD [] ∈ m.frames := by
  cases held : m.locals with
  | nil => exact .inl rfl
  | cons f fs => exact .inr (local_mem_frames (by simp [held]))

section Orderly

variable {p : Program} {c : Opcode} {operands : List Operand} {m x y : Machine}
  {kind : FrameKind} {d : Frame}

theorem Orderly.nodup (orderly : m.Orderly) (member : d = [] ∨ d ∈ m.frames) : d.keys.Nodup := by
  rcases member with rfl | there
  · exact List.nodup_nil
  · exact orderly d there

theorem Orderly.of_subset (orderly : x.Orderly) (within : ∀ f ∈ y.frames, f = [] ∨ f ∈ x.frames) :
    y.Orderly := by
  intro f member
  exact orderly.nodup (within f member)

theorem Orderly.store (orderly : x.Orderly) (found : frameOf x kind = .ok (some d)) (name : String)
    (v : Value) :
    (storeIn kind name v x).Orderly := by
  obtain ⟨h, -, there, stored⟩ := frames_of_frameOf found
  intro f member
  rw [stored] at member
  rcases List.mem_or_eq_of_mem_set member with old | rfl
  · exact orderly f old
  · exact Dictionary.nodup_insert (orderly d (List.mem_of_getElem? there))

theorem Orderly.congr (orderly : x.Orderly) (same : SameFrames x y) : y.Orderly := by
  rw [Orderly, same.frames]
  exact orderly

theorem Reframes.orderly (altered : Reframes c operands x y) (orderly : x.Orderly) : y.Orderly := by
  cases altered with
  | keeps same => exact orderly.congr same
  | assigns f name v d rest named found known supplied same =>
    exact (orderly.store found name v).congr same
  | declares f name d opcode named found fresh same =>
    exact (orderly.store found name .none).congr same
  | creates opcode same =>
    refine (orderly.of_subset fun f member => ?_).congr same
    simp only [frames, List.mem_cons, List.mem_append, Option.toList_some, List.not_mem_nil,
      or_false] at member ⊢
    grind
  | pushes top opcode held same =>
    refine (orderly.of_subset fun f member => .inr ?_).congr same
    simpa [frames, held, or_comm] using member
  | pops top rest opcode held same =>
    refine (orderly.of_subset fun f member => .inr ?_).congr same
    simp only [frames, held, List.mem_cons, List.mem_append, Option.toList_some,
      List.not_mem_nil, or_false, List.mem_reverse] at member ⊢
    grind

/-- Every frame has each of its names once all along a run. -/
theorem reached_orderly (p : Program) (orderly : m.Orderly) (n : Nat) :
    (reached p m n).Orderly := by
  induction n with
  | zero => exact orderly
  | succ n ih =>
    rcases (reached_proceeds p m n).alters with same | ⟨i, -, altered⟩
    · rwa [same]
    · exact altered.frames.orderly ih

end Orderly

end Machine

namespace Editor.Showing

open Outline

variable {α : Type} {find : Finder} {c d : Showing Unit} {f g : Outline → Outline}
  {path : List String} {name : String} {v : Value} {es : List (String × Value)} {fr : Frame}
  {frs : List Frame}

/-- The computation succeeds on every outline whose items have different names beside each other. It
changes the outline in this way, and the names stay different. -/
def Shows (c : Showing Unit) (f : Outline → Outline) : Prop :=
  ∀ o, o.Distinct → c.run o = .ok () (f o) ∧ (f o).Distinct

theorem Shows.update (same : ∀ o, o.Distinct → f o = g o)
    (kept : ∀ o, o.Distinct → (g o).Distinct) :
    Shows (modify f) g :=
  fun o distinct => ⟨congrArg (EStateM.Result.ok ()) (same o distinct), kept o distinct⟩

theorem Shows.congr (shows : Shows c f) (same : ∀ o, f o = g o) : Shows c g := by
  intro o distinct
  rw [← same o]
  exact shows o distinct

theorem Shows.andThen (first : Shows c f) (second : Shows d g) :
    Shows (c >>= fun _ => d) (g ∘ f) := by
  intro o distinct
  obtain ⟨ran, between⟩ := first o distinct
  rw [EStateM.run_bind, ran]
  exact second (f o) between

theorem Shows.forM {c : α → Showing Unit} {f : α → Outline → Outline} {xs : List α}
    (each : ∀ x ∈ xs, Shows (c x) (f x)) :
    Shows (xs.forM c) fun o => xs.foldl (fun o x => f x o) o := by
  induction xs with
  | nil => exact fun _ distinct => ⟨rfl, distinct⟩
  | cons x xs ih =>
    exact (each x List.mem_cons_self).andThen (ih fun y later =>
      each y (List.mem_cons_of_mem x later))

/-- The text of a value that has one. -/
def shownText (v : Value) : Text := v.text.toOption.getD []

/-- What an item is set to for a value. -/
def assigned (v : Value) (i : Item) : Item :=
  { i with value := .str (shownText v), kind := .str v.kind.name }

/-- The item of a value under a name. -/
def entry (e : String × Value) : Item := assigned e.2 { name := e.1 }

/-- Puts items below the item of a name in the place of those that are there. -/
def fill (name : String) (items : Outline) : Outline → Outline :=
  alter name (Item.inside fun _ => items)

section Lawful

variable (lawful : find.Lawful)
include lawful

theorem set_shows (path : List String) (name : String) (value kind : Json) :
    Shows (modify (Outline.set find path name value kind))
      (within (alter name ({ · with value, kind })) path) := by
  refine .update (fun _ distinct => set_eq lawful distinct path name value kind)
    fun _ distinct => ?_
  have each (i : Item) : ({ i with value, kind } : Item).name = i.name := rfl
  exact distinct.within (fun _ below => below.alter each (fun _ items => items) name) path

theorem clearBelow_shows (path : List String) (name : String) :
    Shows (modify (Outline.clearBelow find path name)) (within (fun _ => []) (path ++ [name])) :=
  .update (fun _ distinct => clearBelow_eq lawful distinct path name) fun _ distinct =>
    distinct.within (fun _ _ => .nil) (path ++ [name])

theorem remove_shows (path : List String) (name : String) :
    Shows (modify (Outline.remove find path name)) (within (without name) path) :=
  .update (fun _ distinct => remove_eq lawful distinct path name) fun _ distinct =>
    distinct.within (fun _ below => below.without name) path

theorem value_shows (path : List String) (name : String) (readable : ∃ text, v.text = .ok text) :
    Shows (value find path name v) (within (alter name (assigned v)) path) := by
  obtain ⟨text, readable⟩ := readable
  have same : shownText v = text := by rw [shownText, readable]; rfl
  unfold value assigned
  rw [readable, same]
  exact set_shows lawful path name _ _

/-- Values below an item that has been cleared. -/
theorem entries_show (readable : ∀ e ∈ es, ∃ text, e.2.text = .ok text)
    (distinct : (es.map (·.1)).Nodup) (path : List String) (name : String) :
    Shows (do
        modify (Outline.clearBelow find path name)
        es.forM fun e => value find (path ++ [name]) e.1 e.2)
      (within (fill name (es.map entry)) path) := by
  have shows := (clearBelow_shows lawful path name).andThen
    (Shows.forM fun e member => value_shows lawful (path ++ [name]) e.1 (readable e member))
  have listed : es.foldl (fun o e => alter e.1 (assigned e.2) o) [] = es.map entry :=
    foldl_alter_of_lacks (fun _ _ => rfl) distinct fun _ _ => List.forall_mem_nil _
  refine shows.congr fun o => ?_
  rw [Function.comp_apply, foldl_within, within_concat, fill, ← listed]

end Lawful

/-- Names in order. -/
def byName (a b : String × Value) : Bool := !(b.1 < a.1)

/-- The variables of a frame by name. -/
def sorted (fr : Frame) : List (String × Value) := List.mergeSort fr byName

theorem sorted_perm (fr : Frame) : (sorted fr).Perm fr := List.mergeSort_perm fr byName

theorem sorted_nodup (orderly : fr.keys.Nodup) : ((sorted fr).map (·.1)).Nodup :=
  ((sorted_perm fr).map Prod.fst).nodup_iff.mpr orderly

theorem sorted_pairwise (orderly : fr.keys.Nodup) : (sorted fr).Pairwise fun a b => a.1 < b.1 := by
  have ordered : (sorted fr).Pairwise fun a b => byName a b = true := by
    apply List.pairwise_mergeSort
    · intro a b c first second
      simp only [byName, Bool.not_eq_true', decide_eq_false_iff_not, String.not_lt]
        at first second ⊢
      exact String.le_trans first second
    · intro a b
      simp only [byName, Bool.or_eq_true, Bool.not_eq_true', decide_eq_false_iff_not, String.not_lt]
      exact String.le_total a.1 b.1
  have distinct : (sorted fr).Pairwise fun a b => a.1 ≠ b.1 :=
    List.pairwise_map.mp (sorted_nodup orderly)
  refine (ordered.and distinct).imp ?_
  rintro a b ⟨first, different⟩
  simp only [byName, Bool.not_eq_true', decide_eq_false_iff_not, String.not_lt] at first
  exact Decidable.byContradiction fun later =>
    different (String.le_antisymm first (String.not_lt.mp later))

/-- The items of the variables of a frame. -/
def variableItems (fr : Frame) : Outline := (sorted fr).map entry

theorem namedFrame_shows (lawful : find.Lawful) (readable : ∀ e ∈ fr, ∃ text, e.2.text = .ok text)
    (orderly : fr.keys.Nodup) (path : List String) (name : String) :
    Shows (namedFrame find path name fr) (within (fill name (variableItems fr)) path) :=
  entries_show lawful (fun e member => readable e ((sorted_perm fr).mem_iff.mp member))
    (sorted_nodup orderly) path name

theorem indexed_injective {i j : Nat} (same : indexed i = indexed j) : i = j := by
  have digits : i.repr.toList = j.repr.toList := by
    simpa [indexed, ToString.toString, String.toList_append] using congrArg String.toList same
  rw [Nat.toList_repr, Nat.toList_repr] at digits
  rw [← Nat.ofDigitChars_toDigits (b := 10) (n := i) (by decide) (by decide), digits,
    Nat.ofDigitChars_toDigits (by decide) (by decide)]

theorem nodup_indexed (xs : List α) (k : Nat) : ((xs.zipIdx k).map fun e => indexed e.2).Nodup := by
  have numbers : (xs.zipIdx k).map (fun e => indexed e.2) =
      (List.range' k xs.length).map indexed := by
    rw [← List.zipIdx_map_snd k xs, List.map_map]
    rfl
  rw [numbers]
  refine List.pairwise_map.mpr (List.Pairwise.imp ?_ List.nodup_range')
  intro i j different same
  exact different (indexed_injective same)

/-- The items of a data stack from the top. -/
def stackItems (vs : List Value) : Outline := (vs.zipIdx.map fun e => (indexed e.2, e.1)).map entry

theorem stack_shows (lawful : find.Lawful) {vs : List Value}
    (readable : ∀ v ∈ vs, ∃ text, v.text = .ok text) :
    Shows (do
        modify (Outline.clearBelow find [] dataStack)
        vs.zipIdx.forM fun e => value find [dataStack] (indexed e.2) e.1)
      (fill dataStack (stackItems vs)) := by
  have texts : ∀ e ∈ vs.zipIdx.map fun e => (indexed e.2, e.1), ∃ text, e.2.text = .ok text := by
    intro e member
    obtain ⟨⟨v, i⟩, inside, rfl⟩ := List.mem_map.mp member
    exact readable v (List.fst_mem_of_mem_zipIdx inside)
  have distinct : ((vs.zipIdx.map fun e => (indexed e.2, e.1)).map (·.1)).Nodup := by
    rw [List.map_map]
    exact nodup_indexed vs 0
  have shows := entries_show lawful texts distinct [] dataStack
  simp only [List.forM_eq_forM, List.forM_map] at shows ⊢
  exact shows

/-- The items of frames, of which the first has this number. -/
def framesFrom (k : Nat) (frs : List Frame) : Outline :=
  (frs.zipIdx k).map fun e => { name := indexed e.2, items := variableItems e.1 }

theorem framesFrom_cons (k : Nat) (fr : Frame) (frs : List Frame) :
    framesFrom k (fr :: frs) = { name := indexed k, items := variableItems fr } ::
      framesFrom (k + 1) frs := rfl

theorem length_framesFrom (k : Nat) (frs : List Frame) :
    (framesFrom k frs).length = frs.length := by
  simp [framesFrom]

/-- Fills the items of frames, of which the first has this number. -/
def fillFrom (k : Nat) (frs : List Frame) (o : Outline) : Outline :=
  (frs.zipIdx k).foldl (fun o e => fill (indexed e.2) (variableItems e.1) o) o

/-- Removes a number of items from a number on. -/
def removeFrom (k n : Nat) (o : Outline) : Outline :=
  (List.range' k n).foldl (fun o i => without (indexed i) o) o

/-- No item has a number from this one on. -/
def EndsBefore (k : Nat) (o : Outline) : Prop := ∀ i, k ≤ i → Lacks (indexed i) o

theorem EndsBefore.snoc {k : Nat} {o : Outline} (ends : EndsBefore k o) (items : Outline) :
    EndsBefore (k + 1) (o ++ [{ name := indexed k, items }]) := by
  intro i later j member
  rcases List.mem_append.mp member with there | new
  · exact ends i (Nat.le_of_succ_le later) j there
  · rw [List.mem_singleton.mp new]
    intro same
    have equal := indexed_injective same
    omega

-- Frames that are still shown are filled anew, frames that have come are added, and those that have
-- gone stay behind them.
theorem fillFrom_framesFrom {k : Nat} {o : Outline} (ends : EndsBefore k o) (frs old : List Frame) :
    fillFrom k frs (o ++ framesFrom k old) =
      o ++ framesFrom k frs ++ framesFrom (k + frs.length) (old.drop frs.length) := by
  induction frs generalizing k o old with
  | nil => simp [fillFrom, framesFrom]
  | cons fr frs ih =>
    have filled : fill (indexed k) (variableItems fr) (o ++ framesFrom k old) =
        o ++ [{ name := indexed k, items := variableItems fr }] ++
          framesFrom (k + 1) (old.drop 1) := by
      rw [fill, alter_append_of_lacks (ends k (Nat.le_refl k)), List.append_assoc]
      cases old with
      | nil => rfl
      | cons first old => exact congrArg (o ++ ·) (alter_cons_of_name rfl)
    have rest := ih (ends.snoc (variableItems fr)) (old.drop 1)
    rw [fillFrom, List.zipIdx_cons, List.foldl_cons, filled, ← fillFrom, rest, framesFrom_cons,
      List.drop_drop, List.length_cons, Nat.add_comm 1, Nat.add_assoc k, Nat.add_comm 1]
    simp

theorem removeFrom_framesFrom {k : Nat} {o : Outline} (ends : EndsBefore k o) (old : List Frame) :
    removeFrom k old.length (o ++ framesFrom k old) = o := by
  induction old generalizing k with
  | nil => simp [removeFrom, framesFrom]
  | cons fr old ih =>
    have first : without (indexed k) (framesFrom k (fr :: old)) = framesFrom (k + 1) old :=
      without_cons_of_name rfl
    rw [List.length_cons, removeFrom, List.range'_succ, List.foldl_cons,
      without_append_of_lacks (ends k (Nat.le_refl k)), first]
    exact ih fun i later => ends i (Nat.le_of_succ_le later)

/-- What becomes of the items of a frame stack when other frames are shown. -/
def restack (frs : List Frame) (o : Outline) : Outline :=
  let filled := fillFrom 0 frs o
  removeFrom frs.length (filled.length - frs.length) filled

theorem endsBefore_framesFrom (frs : List Frame) : EndsBefore frs.length (framesFrom 0 frs) := by
  intro i later j member
  obtain ⟨⟨fr, n⟩, inside, rfl⟩ := List.mem_map.mp member
  have bound := (List.mem_zipIdx inside).2.1
  intro same
  have equal := indexed_injective same
  omega

theorem restack_framesFrom (frs old : List Frame) :
    restack frs (framesFrom 0 old) = framesFrom 0 frs := by
  have none : EndsBefore 0 [] := fun _ _ => List.forall_mem_nil _
  have filled := fillFrom_framesFrom none frs old
  have length :
      (framesFrom 0 frs ++ framesFrom frs.length (old.drop frs.length)).length - frs.length =
      (old.drop frs.length).length := by
    rw [List.length_append, length_framesFrom, length_framesFrom, Nat.add_sub_cancel_left]
  rw [List.nil_append, List.nil_append, Nat.zero_add] at filled
  rw [restack, filled, length]
  exact removeFrom_framesFrom (endsBefore_framesFrom frs) _

theorem filled_eq (frs : List Frame) (o : Outline) :
    frs.zipIdx.foldl (fun o e => within (fill (indexed e.2) (variableItems e.1)) [frameStack] o)
      (alter frameStack id o) = within (fillFrom 0 frs) [frameStack] o := by
  have there : alter frameStack id o = within id [frameStack] o :=
    congrArg (alter frameStack · o) (funext fun i => by cases i; rfl)
  rw [there, foldl_within]
  rfl

theorem removeFrames_run (lawful : find.Lawful) {o : Outline} (distinct : o.Distinct) (spot : Spot)
    (count : Nat) :
    let removed := (List.range' count ((o.below spot.rows).length - count)).foldl
      (fun o i => within (without (indexed i)) [frameStack] o) o
    (removeFrames find spot count).run o = .ok () removed ∧ removed.Distinct :=
  Shows.forM (fun i (_ : i ∈ List.range' count ((o.below spot.rows).length - count)) =>
    remove_shows lawful [frameStack] (indexed i)) o distinct

/-- Showing frames changes the items of the frame stack. -/
theorem frames_show (lawful : find.Lawful)
    (readable : ∀ fr ∈ frs, ∀ e ∈ fr, ∃ text, e.2.text = .ok text)
    (orderly : ∀ fr ∈ frs, fr.keys.Nodup) :
    Shows (frames find frs) (within (restack frs) [frameStack]) := by
  intro o distinct
  have located := getItem_located lawful distinct [] frameStack
  have made := getItem_eq lawful distinct [] frameStack
  have looks : (modifyGet (getItem find [] frameStack) : Showing Spot).run o =
      .ok (o.getItem find [] frameStack).1 (o.getItem find [] frameStack).2 := rfl
  generalize (o.getItem find [] frameStack).1 = spot at located looks
  generalize (o.getItem find [] frameStack).2 = there at located made looks
  obtain ⟨filled, between⟩ := Shows.forM (fun e (member : e ∈ frs.zipIdx) =>
    namedFrame_shows lawful (readable e.1 (List.fst_mem_of_mem_zipIdx member))
      (orderly e.1 (List.fst_mem_of_mem_zipIdx member)) [frameStack] (indexed e.2)) there
        located.distinct
  have all := filled_eq frs o
  rw [show alter frameStack id o = there from made.symm] at all
  simp only [all] at filled between
  obtain ⟨removed, last⟩ := removeFrames_run lawful between spot frs.length
  -- The spot looked up at the beginning still leads to the items of the frame stack.
  have along (f : Outline → Outline) : within f [frameStack] o = there.changeBelow f spot.rows :=
    (located.changeBelow f).symm
  have rows : (within (fillFrom 0 frs) [frameStack] o).below spot.rows =
      fillFrom 0 frs (there.below spot.rows) := by
    obtain ⟨i, found, -⟩ := located.there
    rw [along, below_changeBelow (reaches_rows found)]
  have whole :
      (List.range' frs.length ((fillFrom 0 frs (there.below spot.rows)).length - frs.length)).foldl
      (fun o i => within (without (indexed i)) [frameStack] o)
        (within (fillFrom 0 frs) [frameStack] o) =
        within (restack frs) [frameStack] o := by
    rw [foldl_within, along, along]
    exact changeBelow_congr rfl
  rw [rows, whole] at removed last
  refine ⟨?_, last⟩
  rw [frames, EStateM.run_bind, looks]
  change ((frs.zipIdx.forM fun e => namedFrame find [frameStack] (indexed e.2) e.1) >>=
    fun _ => removeFrames find spot frs.length).run there = _
  rw [EStateM.run_bind, filled]
  exact removed

def priceText (m : Machine) : Text :=
  let total := m.instructionPrice + m.operandPrice
  let (instructions, operands) := (m.instructionPrice, m.operandPrice)
  s!"{total} ({instructions}+{operands})"

/-- The outline after a machine has been shown. -/
def refreshed (m : Machine) (o : Outline) : Outline :=
  let o := fill "GF" (variableItems m.globals) o
  let o := fill "TF" (variableItems (m.temp.getD [])) o
  let o := fill "LF" (variableItems (m.locals.head?.getD [])) o
  let o := fill dataStack (stackItems m.stack) o
  let o := within (restack m.locals) [frameStack] o
  alter "Price" ({ · with value := .str (priceText m), kind := .str [] }) o

theorem machine_shows (lawful : find.Lawful) {m : Machine} (readable : m.Readable)
    (orderly : m.Orderly) :
    Shows (machine find m) (refreshed m) := by
  have whole (fr : Frame) (name : String) (member : fr = [] ∨ fr ∈ m.frames) :
      Shows (namedFrame find [] name fr) (fill name (variableItems fr)) := by
    refine namedFrame_shows lawful ?_ (orderly.nodup member) [] name
    rcases member with rfl | there
    · exact List.forall_mem_nil _
    · exact readable.inFrames fr there
  have frames :=
    frames_show lawful (fun fr member => readable.inFrames fr (Machine.local_mem_frames member))
    (fun fr member => orderly fr (Machine.local_mem_frames member))
  have shows := (whole _ "GF" (.inr List.mem_cons_self)).andThen
    ((whole _ "TF" m.temporary_mem_frames).andThen
    ((whole _ "LF" m.innermost_mem_frames).andThen ((stack_shows lawful readable.onStack).andThen
      (frames.andThen (set_shows lawful [] "Price" (.str (priceText m)) (.str []))))))
  simp only [bind_assoc] at shows
  exact shows

/-! Whatever the finder, showing a machine fails only at a value that has no text. -/

section Success

variable {β : Type} {P Q : Prop}

/-- The computation succeeds on every outline exactly if this holds. -/
def Asks (c : Showing α) (P : Prop) : Prop := ∀ o, (∃ a o', c.run o = .ok a o') ↔ P

theorem Asks.bind {c : Showing α} {k : α → Showing β} (first : Asks c P)
    (second : ∀ a, Asks (k a) Q) :
    Asks (c >>= k) (P ∧ Q) := by
  intro o
  rw [← first o, EStateM.run_bind]
  cases ran : c.run o with
  | ok a between => simpa using second a between
  | error f between => simp

theorem Asks.update (f : Outline → Outline) : Asks (modify f) True :=
  fun _ => iff_of_true ⟨_, _, rfl⟩ trivial

theorem Asks.forM {c : α → Showing Unit} {P : α → Prop} {xs : List α}
    (each : ∀ x ∈ xs, Asks (c x) (P x)) :
    Asks (xs.forM c) (∀ x ∈ xs, P x) := by
  induction xs with
  | nil => exact fun o => iff_of_true ⟨(), o, rfl⟩ (List.forall_mem_nil _)
  | cons x xs ih =>
    intro o
    rw [List.forall_mem_cons]
    exact (each x List.mem_cons_self).bind (fun _ => ih fun y later =>
      each y (List.mem_cons_of_mem x later)) o

theorem value_asks (find : Finder) (path : List String) (name : String) (v : Value) :
    Asks (value find path name v) (∃ text, v.text = .ok text) := by
  unfold value
  cases v.text with
  | ok text => exact fun o => iff_of_true ⟨(), _, rfl⟩ ⟨text, rfl⟩
  | error f =>
    refine fun o => iff_of_false ?_ ?_
    · rintro ⟨a, o', ran⟩
      cases ran
    · rintro ⟨text, same⟩
      cases same

theorem namedFrame_asks (find : Finder) (path : List String) (name : String) (fr : Frame) :
    Asks (namedFrame find path name fr) (∀ e ∈ fr, ∃ text, e.2.text = .ok text) := by
  have shown := (Asks.update (Outline.clearBelow find path name)).bind fun _ =>
    Asks.forM fun e (_ : e ∈ sorted fr) => value_asks find (path ++ [name]) e.1 e.2
  simp only [(sorted_perm fr).mem_iff, true_and] at shown
  exact shown

theorem Asks.forM_zipIdx {c : α × Nat → Showing Unit} (P : α → Prop)
    (each : ∀ e, Asks (c e) (P e.1)) (xs : List α) : Asks (xs.zipIdx.forM c) (∀ x ∈ xs, P x) := by
  have shown := Asks.forM fun e (_ : e ∈ xs.zipIdx) => each e
  rwa [← List.forall_mem_map, List.zipIdx_map_fst] at shown

theorem removeFrames_asks (find : Finder) (spot : Spot) (count : Nat) :
    Asks (removeFrames find spot count) True := by
  intro o
  have each := Asks.forM fun i (_ : i ∈ List.range' count ((o.below spot.rows).length - count)) =>
    Asks.update (Outline.remove find [frameStack] (indexed i))
  exact (each o).trans (iff_of_true (fun _ _ => trivial) trivial)

theorem frames_asks (find : Finder) (frs : List Frame) :
    Asks (frames find frs) (∀ fr ∈ frs, ∀ e ∈ fr, ∃ text, e.2.text = .ok text) := by
  have looked : Asks (modifyGet (getItem find [] frameStack)) True :=
    fun _ => iff_of_true ⟨_, _, rfl⟩ trivial
  have filled := Asks.forM_zipIdx (fun fr => ∀ e ∈ fr, ∃ text, e.2.text = .ok text)
    (fun e => namedFrame_asks find [frameStack] (indexed e.2) e.1) frs
  have shown := looked.bind fun spot => filled.bind fun _ => removeFrames_asks find spot frs.length
  rw [true_and, and_true] at shown
  exact shown

/-- A machine can be shown exactly if all its values have a text. -/
theorem machine_asks (find : Finder) (m : Machine) : Asks (machine find m) m.Readable := by
  have stack := Asks.forM_zipIdx (fun v => ∃ text, v.text = .ok text)
    (fun e => value_asks find [dataStack] (indexed e.2) e.1) m.stack
  have shown := (namedFrame_asks find [] "GF" m.globals).bind fun _ =>
    (namedFrame_asks find [] "TF" (m.temp.getD [])).bind fun _ =>
      (namedFrame_asks find [] "LF" (m.locals.head?.getD [])).bind fun _ =>
        (Asks.update (Outline.clearBelow find [] dataStack)).bind fun _ => stack.bind fun _ =>
          (frames_asks find m.locals).bind fun _ =>
            Asks.update (Outline.set find [] "Price" (.str (priceText m)) (.str []))
  intro o
  refine (shown o).trans ⟨?_, ?_⟩
  · rintro ⟨globals, temp, -, -, onStack, locals, -⟩
    refine ⟨fun f inside => ?_, onStack⟩
    rw [Machine.frames, List.mem_cons, List.mem_append, List.mem_reverse,
      Option.mem_toList] at inside
    rcases inside with rfl | stacked | held
    · exact globals
    · exact locals f stacked
    · rw [held] at temp
      exact temp
  · intro readable
    have texts (f : Frame) (member : f = [] ∨ f ∈ m.frames) : ∀ e ∈ f, ∃ text, e.2.text =
        .ok text := by
      rcases member with rfl | there
      · exact List.forall_mem_nil _
      · exact readable.inFrames f there
    exact ⟨texts _ (.inr List.mem_cons_self), texts _ m.temporary_mem_frames,
      texts _ m.innermost_mem_frames, trivial, readable.onStack, fun f member =>
        readable.inFrames f (Machine.local_mem_frames member), trivial⟩

end Success

/-- What a machine looks like on its own. -/
def view (m : Machine) : Outline :=
  [{ name := "GF", items := variableItems m.globals },
    { name := "TF", items := variableItems (m.temp.getD []) },
    { name := "LF", items := variableItems (m.locals.head?.getD []) },
    { name := dataStack, items := stackItems m.stack },
    { name := frameStack, items := framesFrom 0 m.locals },
    { name := "Price", value := .str (priceText m) }]

theorem refreshed_nil (m : Machine) : refreshed m [] = view m := by
  have stacked : restack m.locals [] = framesFrom 0 m.locals := restack_framesFrom m.locals []
  simp [refreshed, fill, within, alter, view, Item.inside, stacked, dataStack, frameStack]

theorem refreshed_view (m earlier : Machine) : refreshed m (view earlier) = view m := by
  simp [refreshed, fill, within, alter, view, Item.inside, restack_framesFrom,
    dataStack, frameStack]

/-- Nothing remains of the machines that have been shown before. -/
theorem foldl_refreshed (earlier : List Machine) (last : Machine) {o : Outline}
    (fresh : ∀ m, refreshed m o = view m) :
    (earlier ++ [last]).foldl (fun o m => refreshed m o) o = view last := by
  induction earlier generalizing o with
  | nil => exact fresh last
  | cons m earlier ih =>
    rw [List.cons_append, List.foldl_cons, fresh m]
    exact ih fun next => refreshed_view next m

theorem forM_machine_run (lawful : find.Lawful) {earlier : List Machine} {last : Machine}
    (readable : ∀ m ∈ earlier ++ [last], m.Readable)
    (orderly : ∀ m ∈ earlier ++ [last], m.Orderly) :
    ((earlier ++ [last]).forM (machine find)).run [] = .ok () (view last) := by
  have shows := Shows.forM fun m member => machine_shows lawful (readable m member)
    (orderly m member)
  rw [← foldl_refreshed earlier last refreshed_nil]
  exact (shows [] .nil).1

/-- The variables of a frame in the order of their names, each with its value and its kind. -/
def Lists (fr : Frame) (o : Outline) : Prop :=
  ∃ es : List (String × Value), es.Perm fr ∧ es.Pairwise (fun a b => a.1 < b.1) ∧ o = es.map entry

/-- Frames from the innermost to the outermost, each under its number. -/
structure ListsAll (frs : List Frame) (o : Outline) : Prop where
  length : o.length = frs.length
  each : ∀ n fr, frs[n]? = some fr → ∃ items, o[n]? = some ({ name := indexed n, items } : Item) ∧
    Lists fr items

/-- An outline that shows a machine and nothing else. -/
inductive Pictures (m : Machine) : Outline → Prop
  | intro {globals temporary innermost frames : Outline} (inGlobals : Lists m.globals globals)
      (inTemporary : Lists (m.temp.getD []) temporary)
      (inInnermost : Lists (m.locals.head?.getD []) innermost)
      (inFrames : ListsAll m.locals frames) :
      Pictures m
        [{ name := "GF", items := globals }, { name := "TF", items := temporary },
          { name := "LF", items := innermost },
          { name := "Data stack", items := m.stack.zipIdx.map fun e => entry (indexed e.2, e.1) },
          { name := "Frame stack", items := frames },
          { name := "Price", value := .str (priceText m) }]

theorem lists_variableItems (orderly : fr.keys.Nodup) : Lists fr (variableItems fr) :=
  ⟨sorted fr, sorted_perm fr, sorted_pairwise orderly, rfl⟩

theorem listsAll_framesFrom (orderly : ∀ fr ∈ frs, fr.keys.Nodup) :
    ListsAll frs (framesFrom 0 frs) := by
  refine ⟨length_framesFrom 0 frs, fun n fr found => ⟨variableItems fr, ?_, ?_⟩⟩
  · simp [framesFrom, List.getElem?_zipIdx, found]
  · exact lists_variableItems (orderly fr (List.mem_of_getElem? found))

theorem distinct_entries (distinct : (es.map (·.1)).Nodup) : Distinct (es.map entry) := by
  refine .intro ?_ ?_
  · rw [List.map_map]
    exact distinct
  · intro i member
    obtain ⟨e, -, rfl⟩ := List.mem_map.mp member
    exact .intro List.nodup_nil (List.forall_mem_nil _)

theorem Lists.distinct {o : Outline} (lists : Lists fr o) : Distinct o := by
  obtain ⟨es, -, ordered, rfl⟩ := lists
  apply distinct_entries
  refine List.pairwise_map.mpr (ordered.imp ?_)
  intro a b before same
  exact String.lt_irrefl _ (same ▸ before)

theorem stackItems_eq (vs : List Value) :
    stackItems vs = vs.zipIdx.map fun e => entry (indexed e.2, e.1) := by
  rw [stackItems, List.map_map]
  rfl

theorem view_pictures {m : Machine} (orderly : m.Orderly) : Pictures m (view m) := by
  rw [view, stackItems_eq]
  exact .intro (lists_variableItems (orderly _ List.mem_cons_self))
    (lists_variableItems (orderly.nodup m.temporary_mem_frames))
    (lists_variableItems (orderly.nodup m.innermost_mem_frames))
    (listsAll_framesFrom fun fr member => orderly fr (Machine.local_mem_frames member))

theorem distinct_framesFrom (orderly : ∀ fr ∈ frs, fr.keys.Nodup) :
    Distinct (framesFrom 0 frs) := by
  refine .intro ?_ ?_
  · rw [framesFrom, List.map_map]
    exact nodup_indexed frs 0
  · intro i member
    obtain ⟨⟨fr, n⟩, inside, rfl⟩ := List.mem_map.mp member
    exact (lists_variableItems (orderly fr (List.fst_mem_of_mem_zipIdx inside))).distinct

theorem distinct_stackItems (vs : List Value) : Distinct (stackItems vs) := by
  apply distinct_entries
  rw [List.map_map]
  exact nodup_indexed vs 0

theorem view_distinct {m : Machine} (orderly : m.Orderly) : Distinct (view m) := by
  refine .intro ?_ ?_
  · simp [view, dataStack, frameStack]
  · simp only [view, List.forall_mem_cons]
    exact ⟨(lists_variableItems (orderly _ List.mem_cons_self)).distinct,
      (lists_variableItems (orderly.nodup m.temporary_mem_frames)).distinct,
      (lists_variableItems (orderly.nodup m.innermost_mem_frames)).distinct,
      distinct_stackItems m.stack,
      distinct_framesFrom fun fr member => orderly fr (Machine.local_mem_frames member),
      .intro List.nodup_nil (List.forall_mem_nil _), List.forall_mem_nil _⟩

/-- Whatever machines have been shown before, and in whatever order the items of a name are found,
the outline is that of the last machine: it shows the variables of every frame by name, the data
stack and the frames from the top, and no item has the name of another beside it. -/
theorem view_shows_last_machine (lawful : find.Lawful) (earlier : List Machine) (last : Machine)
    (orderly : ∀ m ∈ earlier ++ [last], m.Orderly)
    (readable : ∀ m ∈ earlier ++ [last], m.Readable) :
    ∃ o, ((earlier ++ [last]).forM (machine find)).run [] = .ok () o ∧
      (machine find last).run [] = .ok () o ∧ Pictures last o ∧ o.Distinct := by
  have named := orderly last (by simp)
  refine ⟨view last, forM_machine_run lawful readable orderly, ?_, view_pictures named,
    view_distinct named⟩
  rw [← refreshed_nil last]
  exact (machine_shows lawful (readable last (by simp)) named [] .nil).1

/-- Two frames are pushed and one of them is popped, with a value on the data stack. -/
def shrinkingFrames : Program where
  instructions :=
    let x : Operand := .var ⟨.temporary, true, true⟩ "x"
    let y : Operand := .var ⟨.temporary, true, true⟩ "y"
    #[⟨.createFrame, [], 2, "CREATEFRAME"⟩,
      ⟨.defVar, [y], 3, "DEFVAR TF@y"⟩,
      ⟨.defVar, [x], 4, "DEFVAR TF@x"⟩,
      ⟨.move, [x, .constant (.bool true)], 5, "MOVE TF@x bool@true"⟩,
      ⟨.pushFrame, [], 6, "PUSHFRAME"⟩,
      ⟨.createFrame, [], 7, "CREATEFRAME"⟩,
      ⟨.defVar, [x], 8, "DEFVAR TF@x"⟩,
      ⟨.pushFrame, [], 9, "PUSHFRAME"⟩,
      ⟨.popFrame, [], 10, "POPFRAME"⟩,
      ⟨.push, [.constant (.bool false)], 11, "PUSHS bool@false"⟩]

theorem shrinkingFrames_shown :
    let state := Machine.reached shrinkingFrames (shrinkingFrames.start "" none)
    (state 8).locals = [[("x", .none)], [("y", .none), ("x", .bool true)]] ∧
    (state 10).locals = [[("y", .none), ("x", .bool true)]] ∧ (state 10).stack = [.bool false] ∧
    ∃ o, ([state 8, state 10].forM (machine .depthFirst)).run [] = .ok () o ∧
      (machine .depthFirst (state 10)).run [] = .ok () o ∧
      Pictures (state 10) o ∧ o.Distinct := by
  intro state
  have start : (shrinkingFrames.start "" none).Orderly := by decide +kernel
  have orderly : ∀ m ∈ [state 8, state 10], m.Orderly := by
    simp only [List.forall_mem_cons]
    exact ⟨Machine.reached_orderly _ start 8, Machine.reached_orderly _ start 10,
      List.forall_mem_nil _⟩
  have readable : ∀ m ∈ [state 8, state 10], m.Readable := by decide +kernel
  refine ⟨by decide +kernel, by decide +kernel, by decide +kernel, ?_⟩
  exact view_shows_last_machine Finder.depthFirst_lawful [state 8] (state 10) orderly readable

end Editor.Showing
end TacBench
