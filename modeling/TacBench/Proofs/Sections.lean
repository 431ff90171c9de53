import TacBench.Proofs.Cases
import TacBench.Proofs.Outcomes

/-! What is loaded of a section: the tests that its description gives and those of its code files,
each once and in order. -/
namespace TacBench

/-! Code points are ordered by their codes, and so are texts. -/

theorem CodePoint.toNat_injective : Function.Injective CodePoint.toNat := by
  intro a b same
  cases a with
  | char c =>
    cases b with
    | char d => exact congrArg _ (Char.toNat_inj.mp same)
    | half offset =>
      have valid := c.valid
      have bound := offset.isLt
      simp only [toNat, Char.toNat] at same
      simp only [UInt32.isValidChar, Nat.isValidChar] at valid
      omega
  | half offset =>
    have bound := offset.isLt
    cases b with
    | char d =>
      have valid := d.valid
      simp only [toNat, Char.toNat] at same
      simp only [UInt32.isValidChar, Nat.isValidChar] at valid
      omega
    | half other =>
      simp only [toNat] at same
      rw [show offset = other by omega]

instance : LE CodePoint := ⟨fun a b => a.toNat ≤ b.toNat⟩

instance : Std.IsLinearOrder CodePoint where
  le_refl a := Nat.le_refl a.toNat
  le_trans _ _ _ := Nat.le_trans
  le_antisymm _ _ first second := CodePoint.toNat_injective (Nat.le_antisymm first second)
  le_total a b := Nat.le_total a.toNat b.toNat

instance : Std.LawfulOrderLT CodePoint where
  lt_iff _ _ := Nat.lt_iff_le_and_not_ge

theorem Text.ofString_injective : Function.Injective Text.ofString := by
  intro s s' same
  rw [← shown_ofString s, same, shown_ofString]

namespace Bench

open Files (Tree)

variable {α β : Type} {t : Tree} {s : Suite} {dir : String} {ws ws' : List Warning}

namespace Suite

theorem before_iff {a b : Case} : before a b = true ↔
    a.name.length < b.name.length ∨ a.name.length = b.name.length ∧ a.name ≤ b.name := by
  simp [before]

theorem pairwise_before (cases : List Case) : (cases.mergeSort before).Pairwise fun a b =>
    a.name.length < b.name.length ∨ a.name.length = b.name.length ∧ a.name ≤ b.name := by
  refine (List.pairwise_mergeSort ?_ ?_ cases).imp before_iff.mp
  · intro a b c
    rw [before_iff, before_iff, before_iff]
    rintro (shorter | ⟨same, first⟩) (shorter' | ⟨same', second⟩)
    · exact .inl (by omega)
    · exact .inl (by omega)
    · exact .inl (by omega)
    · exact .inr ⟨by omega, List.le_trans first second⟩
  · intro a b
    rw [Bool.or_eq_true, before_iff, before_iff]
    rcases Nat.lt_trichotomy a.name.length b.name.length with shorter | same | longer
    · exact .inl (.inl shorter)
    · exact (List.le_total a.name b.name).imp (fun first => .inr ⟨same, first⟩) fun second =>
        .inr ⟨same.symm, second⟩
    · exact .inr (.inl longer)

/-- Names that stand once each are in strict order. -/
theorem pairwise_lt {cases : List Case} (once : (cases.map (·.name)).Nodup) :
    (cases.mergeSort before).Pairwise fun a b =>
      a.name.length < b.name.length ∨ a.name.length = b.name.length ∧ a.name < b.name := by
  have differ : (cases.mergeSort before).Pairwise fun a b => a.name ≠ b.name := by
    rw [← List.pairwise_map (f := fun c : Case => c.name) (R := fun m n => m ≠ n)]
    exact ((List.mergeSort_perm cases before).map _).nodup_iff.mpr once
  refine List.Pairwise.imp₂ ?_ (pairwise_before cases) differ
  rintro a b (shorter | ⟨same, first⟩) other
  · exact .inl shorter
  · refine .inr ⟨same, List.not_le.mp fun second => ?_⟩
    exact other (List.le_antisymm first second)

theorem conflicts_eq_nil {names : List Text} : conflicts names = [] ↔ names.Nodup := by
  rw [List.nodup_iff_count_le_one, List.eq_nil_iff_forall_not_mem]
  refine forall_congr' fun n => ?_
  rw [conflicts, inOrder, List.mem_mergeSort, List.mem_eraseDups, List.mem_filter,
    decide_eq_true_iff, ← Nat.not_lt, not_iff_not]
  exact ⟨fun found => found.2, fun twice =>
    ⟨List.count_pos_iff.mp (Nat.lt_of_succ_lt twice), twice⟩⟩

end Suite

/-! What is kept of a list. -/

section Kept

variable {f : α → Loading (Option β)} {as : List α} {bs : List β}

/-- A run along a list, in which of each element nothing or one value is kept. -/
inductive Walk (f : α → Loading (Option β)) :
    List α → List Warning → List β → List Warning → Prop where
  | nil {ws : List Warning} : Walk f [] ws [] ws
  | cons {a : α} {o : Option β} {as : List α} {bs : List β} {ws between ws' : List Warning}
      (first : (f a).run ws = .ok o between) (rest : Walk f as between bs ws') :
      Walk f (a :: as) ws (o.toList ++ bs) ws'

namespace Walk

theorem of_run (ran : (as.filterMapM f).run ws = .ok bs ws') : Walk f as ws bs ws' := by
  induction as generalizing bs ws with
  | nil =>
    cases ran
    exact .nil
  | cons a as ih =>
    rw [List.filterMapM_cons] at ran
    obtain ⟨o, between, first, rest⟩ := ran_bind ran
    cases o with
    | none => exact .cons first (ih rest)
    | some b =>
      obtain ⟨bs', _, more, last⟩ := ran_bind rest
      cases last
      exact .cons first (ih more)

theorem each (walk : Walk f as ws bs ws') : ∀ a ∈ as, ∃ ws o ws', (f a).run ws = .ok o ws' := by
  induction walk with
  | nil => exact List.forall_mem_nil _
  | cons first _ ih => exact List.forall_mem_cons.mpr ⟨⟨_, _, _, first⟩, ih⟩

theorem suffix (walk : Walk f as ws bs ws')
    (adds : ∀ a ∈ as, ∀ ws o ws', (f a).run ws = .ok o ws' → ws <:+ ws') : ws <:+ ws' := by
  induction walk with
  | nil => exact List.suffix_refl _
  | cons first _ ih =>
    rw [List.forall_mem_cons] at adds
    exact (adds.1 _ _ _ first).trans (ih adds.2)

/-- If of each element is kept what a condition says, the list is filtered by the condition. -/
theorem filterMap {P : α → β → Prop} (walk : Walk f as ws bs ws')
    (keeps : ∀ a ∈ as, ∀ ws o ws', (f a).run ws = .ok o ws' → ∀ b, o = some b ↔ P a b) :
    ∃ keep : α → Option β, bs = as.filterMap keep ∧ ∀ a ∈ as, ∀ b, keep a = some b ↔ P a b := by
  -- an element may stand twice, so that what is kept of it is told by the condition and not by the
  -- run
  let keep (a : α) : Option β := Classical.epsilon fun o => ∀ b, o = some b ↔ P a b
  have kept {a : α} {o : Option β} (spec : ∀ b, o = some b ↔ P a b) : keep a = o := by
    have spec' := Classical.epsilon_spec (p := fun o : Option β => ∀ b, o = some b ↔
      P a b) ⟨o, spec⟩
    exact Option.ext fun b => (spec' b).trans (spec b).symm
  refine ⟨keep, ?_, fun a member => ?_⟩
  · induction walk with
    | nil => rfl
    | @cons _ o _ _ _ _ _ first _ ih =>
      rw [List.forall_mem_cons] at keeps
      rw [List.filterMap_cons, kept (keeps.1 _ _ _ first), ← ih keeps.2]
      cases o <;> rfl
  · obtain ⟨ws, o, ws', ran⟩ := walk.each a member
    have spec := keeps a member _ _ _ ran
    rw [kept spec]
    exact spec

end Walk

end Kept

/-! The tests that a description gives. -/

/-- A test that an entry describes, with the position of the entry. -/
def Described (t : Tree) (s : Suite) (dir : String) (extensions : List Json) (item : Json × Nat)
    (c : Case) : Prop :=
  ∃ entries, item.1 = .dict entries ∧ Accepts t s dir extensions item.2 entries c

/-- Unless an entry is of the wrong kind, each gives its test or is passed by for a reason. -/
theorem describedCases_ok {d : Json} {cases : List Case}
    (ran : (Suite.describedCases t s dir d).run ws = .ok cases ws') :
    (∃ m, .description m ∈ ws') ∨ ∃ es extensions items keep, d = .dict es ∧
      elementsOf es "extensions" = pure extensions ∧ elementsOf es "tests" = pure items ∧
      cases = (items.zipIdx 1).filterMap keep ∧
      (∀ item ∈ items.zipIdx 1, ∀ c, keep item = some c ↔ Described t s dir extensions item c) ∧
      ∀ item ∈ items.zipIdx 1, ∃ entries, item.1 = .dict entries ∧
        (Skips t s dir item.2 entries ∨ ∃ c, Accepts t s dir extensions item.2 entries c) := by
  unfold Suite.describedCases at ran
  cases d with
  | dict es =>
    rw [Suite.entriesOf_dict, pure_bind] at ran
    obtain ⟨extensions, required, ran⟩ := (Silent.elementsOf es "extensions").yields.run_bind.mp ran
    rcases ran_tryCatch ran with ran | ⟨f, between, -, handled⟩
    · obtain ⟨items, given, ran⟩ := (Silent.elementsOf es "tests").yields.run_bind.mp ran
      have walk := Walk.of_run ran
      obtain ⟨keep, kept, spec⟩ := walk.filterMap (P := Described t s dir extensions)
        fun item _ ws o ws' ran c => by
        constructor
        · rintro rfl
          exact (describedCase_some.mp ran).1
        · intro described
          cases ran.symm.trans (describedCase_some.mpr ⟨described, rfl⟩)
          rfl
      refine .inr ⟨es, extensions, items, keep, rfl, required, given, kept, spec,
        fun item member => ?_⟩
      obtain ⟨ws, o, ws', ran⟩ := walk.each item member
      cases o with
      | none =>
        obtain ⟨entries, entry, skips⟩ := describedCase_none ran
        exact ⟨entries, entry, .inl skips⟩
      | some c =>
        obtain ⟨⟨entries, entry, accepts⟩, -⟩ := describedCase_some.mp ran
        exact ⟨entries, entry, .inr ⟨c, accepts⟩⟩
    · left
      split at handled
      · cases handled
        exact ⟨_, List.mem_cons_self⟩
      · cases handled
  | _ => cases ran

/-! The tests of code files. -/

section CodeFiles

variable {l : Files.Location} {taken : List Text} {extensions : List Json}

/-- A code file of the directory that is chosen, and whose name is not taken. -/
structure Wanted (t : Tree) (s : Suite) (dir : String) (l : Files.Location) (taken : Text → Prop)
    (name : String) :
    Prop where
  code : Files.CodeName t l name
  free : ¬ taken name
  chosen : allowed s.wildcards (Files.baseName dir) name = true

theorem fileCase?_ok {name : String} {o : Option Case} (code : Files.CodeName t l name)
    (proper : t.Proper) (some : Tree.bare dir ≠ "")
    (ran : (Suite.fileCase? t s dir taken extensions
      (Files.join (Tree.bare dir) (name ++ ".code"))).run ws =
      .ok o ws') :
    ws <:+ ws' ∧ (∀ c, o = .some c ↔ Wanted t s dir l (· ∈ taken) name ∧
      FileTest t s dir extensions name c) ∧
      (Wanted t s dir l (· ∈ taken) name → Sound t dir name →
        ∃ c, FileTest t s dir extensions name c) := by
  unfold Suite.fileCase? at ran
  rw [Files.baseName_join some (proper.plain_child code.1), Files.stem_code code.2] at ran
  dsimp only at ran
  split at ran
  · rename_i passed
    have unwanted : ¬ Wanted t s dir l (· ∈ taken) name := by
      intro wanted
      simp [Suite.chooses, wanted.free, wanted.chosen] at passed
    cases ran
    refine ⟨List.suffix_refl _, fun c => iff_of_false ?_ fun test => unwanted test.1,
      fun wanted => absurd wanted unwanted⟩
    intro given
    cases given
  · rename_i kept
    have wanted : Wanted t s dir l (· ∈ taken) name := by
      rw [Bool.or_eq_true, not_or] at kept
      exact ⟨code, by simpa using kept.1, by simpa [Suite.chooses] using kept.2⟩
    have test := yields_fileCase t s dir extensions name
    rcases ran_tryCatch ran with ran | ⟨f, between, failed, handled⟩
    · obtain ⟨c, given, ended⟩ := test.run_bind.mp ran
      cases ended
      refine ⟨List.suffix_refl _, fun c' => ⟨?_, ?_⟩, fun _ _ => ⟨c, given⟩⟩
      · rintro ⟨⟩
        exact ⟨wanted, given⟩
      · rintro ⟨-, given'⟩
        cases ((test.done ws c ws).mpr ⟨given, rfl⟩).symm.trans
          ((test.done ws c' ws).mpr ⟨given', rfl⟩)
        rfl
    · -- the fault leaves the warnings as they were;
      -- if it is about the content, there is no such test
      obtain rfl := (test.bind fun c _ => .value (Option.some c)).failed _ _ _ failed
      split at handled
      · rename_i m message
        cases handled
        have none (c : Case) (given : FileTest t s dir extensions name c) : False := by
          rw [test.run_of given] at failed
          cases failed
        refine ⟨List.suffix_cons _ _, fun c => iff_of_false ?_ fun given => none c given.2,
          fun _ sound => ?_⟩
        · intro given
          cases given
        · refine (fileCase_of_sound sound).resolve_right ?_
          rintro ⟨m', mismatched⟩
          rw [EStateM.run_bind, mismatched] at failed
          cases failed
          cases message
      · cases handled

theorem mem_codePaths (plain : Files.Glob.isPattern dir = false) (located : t.locate dir = .ok l)
    (directory : t.node? l = some .directory) (path : String) :
    path ∈ Suite.inOrder (Files.Glob.paths t (Files.join dir "*.code")) ↔
      ∃ name, Files.CodeName t l name ∧ path = Files.join (Tree.bare dir) (name ++ ".code") := by
  rw [Suite.inOrder, List.mem_mergeSort, Files.Glob.paths_code plain located directory,
    List.mem_map]
  constructor
  · rintro ⟨file, member, rfl⟩
    obtain ⟨name, rfl, code⟩ := Files.mem_filter_code.mp member
    exact ⟨name, code, rfl⟩
  · rintro ⟨name, code, rfl⟩
    exact ⟨_, Files.mem_filter_code.mpr ⟨name, rfl, code⟩, rfl⟩

theorem codePath_inj {name name' : String} (proper : t.Proper) (some : Tree.bare dir ≠ "")
    (code : Files.CodeName t l name) (code' : Files.CodeName t l name')
    (same : Files.join (Tree.bare dir) (name ++ ".code") =
        Files.join (Tree.bare dir) (name' ++ ".code")) :
    name = name' := by
  rw [← Files.stem_code code.2, ← Files.baseName_join some (proper.plain_child code.1), same,
    Files.baseName_join some (proper.plain_child code'.1), Files.stem_code code'.2]

theorem nodup_codePaths (proper : t.Proper) (plain : Files.Glob.isPattern dir = false)
    (located : t.locate dir = .ok l) (directory : t.node? l = some .directory) :
    (Suite.inOrder (Files.Glob.paths t (Files.join dir "*.code"))).Nodup := by
  have some : Tree.bare dir ≠ "" := (Tree.locate_eq_ok.mp (Tree.locate_bare located)).2.1
  rw [Suite.inOrder, (List.mergeSort_perm _ _).nodup_iff,
    Files.Glob.paths_code plain located directory]
  refine List.Nodup.map_on ?_ ((proper.nodup_children l).filter _)
  intro file member file' member' same
  have base {n : String} (child : n ∈ t.children l) :=
    Files.baseName_join some (proper.plain_child child)
  rw [← base (List.mem_of_mem_filter member), same, base (List.mem_of_mem_filter member')]

theorem fileCases_ok {es : List (Text × Json)} {cases : List Case} (proper : t.Proper)
    (plain : Files.Glob.isPattern dir = false) (located : t.locate dir = .ok l)
    (directory : t.node? l = some .directory)
    (ran : (Suite.fileCases t s dir taken (.dict es)).run ws = .ok cases ws') :
    ws <:+ ws' ∧ (cases.map (·.name)).Nodup ∧
    ∃ extensions, elementsOf es "extensions" = pure extensions ∧
      (∀ c, c ∈ cases ↔ ∃ name, Wanted t s dir l (· ∈ taken) name ∧
        FileTest t s dir extensions name c) ∧
      ∀ name, Wanted t s dir l (· ∈ taken) name → Sound t dir name →
        ∃ c, FileTest t s dir extensions name c := by
  unfold Suite.fileCases at ran
  rw [Suite.entriesOf_dict, pure_bind] at ran
  obtain ⟨extensions, required, ran⟩ := (Silent.elementsOf es "extensions").yields.run_bind.mp ran
  have some : Tree.bare dir ≠ "" := (Tree.locate_eq_ok.mp (Tree.locate_bare located)).2.1
  have walk := Walk.of_run ran
  have member := mem_codePaths plain located directory
  obtain ⟨keep, rfl, spec⟩ := walk.filterMap
    (P := fun path c => ∃ name, path = Files.join (Tree.bare dir) (name ++ ".code") ∧
      Wanted t s dir l (· ∈ taken) name ∧ FileTest t s dir extensions name c)
        fun path found ws o ws' ran c => by
    obtain ⟨name, code, rfl⟩ := (member path).mp found
    rw [(fileCase?_ok code proper some ran).2.1 c]
    constructor
    · intro test
      exact ⟨name, rfl, test⟩
    · rintro ⟨name', same, wanted, test⟩
      obtain rfl := codePath_inj proper some code wanted.code same
      exact ⟨wanted, test⟩
  refine ⟨walk.suffix fun path found ws o ws' ran => ?_, ?_, extensions, required, fun c => ?_,
    fun name wanted sound => ?_⟩
  · obtain ⟨name, code, rfl⟩ := (member path).mp found
    exact (fileCase?_ok code proper some ran).1
  · rw [List.nodup_iff_pairwise_ne, List.pairwise_map, List.pairwise_filterMap]
    refine (nodup_codePaths proper plain located directory).imp_of_mem ?_
    intro path path' found found' differ c kept c' kept' same
    obtain ⟨name, rfl, -, test⟩ := (spec path found c).mp kept
    obtain ⟨name', rfl, -, test'⟩ := (spec path' found' c').mp kept'
    rw [test.name, test'.name] at same
    exact differ (by rw [Text.ofString_injective same])
  · rw [List.mem_filterMap]
    constructor
    · rintro ⟨path, found, kept⟩
      obtain ⟨name, -, test⟩ := (spec path found c).mp kept
      exact ⟨name, test⟩
    · rintro ⟨name, wanted, test⟩
      have found := (member _).mpr ⟨name, wanted.code, rfl⟩
      exact ⟨_, found, (spec _ found c).mpr ⟨name, rfl, wanted, test⟩⟩
  · obtain ⟨ws, o, ws', ran⟩ := walk.each _ ((member _).mpr ⟨name, wanted.code, rfl⟩)
    exact (fileCase?_ok wanted.code proper some ran).2.2 wanted sound

end CodeFiles

/-! The whole section. -/

/-- What the description of a section says. One that is missing, empty or malformed says nothing. -/
inductive Describes (t : Tree) (nesting : Nat) (dir : String) : Json → Prop where
  | missing {f : Files.Fault} (unread : t.read (Suite.descriptionFile dir) = .error f)
      (other : f.cause ≠ .nullCharacter) : Describes t nesting dir (.dict [])
  | empty {bytes : List UInt8} (read : t.read (Suite.descriptionFile dir) = .ok bytes)
      (decoded : Utf8.decode bytes = .ok "") : Describes t nesting dir (.dict [])
  | malformed {bytes : List UInt8} {text : String} {cause : Json.Cause} {position : Nat}
      (read : t.read (Suite.descriptionFile dir) = .ok bytes)
      (decoded : Utf8.decode bytes = .ok text)
      (failed : Json.parse nesting text.toList = .error (.malformed cause position)) :
      Describes t nesting dir (.dict [])
  | parsed {bytes : List UInt8} {text : String} {d : Json}
      (read : t.read (Suite.descriptionFile dir) = .ok bytes)
      (decoded : Utf8.decode bytes = .ok text)
      (filled : text ≠ "") (parsed : Json.parse nesting text.toList = .ok d) :
      Describes t nesting dir d

theorem description_ok {d : Json} (ran : (s.description t dir).run ws = .ok d ws') :
    Describes t s.nesting dir d := by
  unfold Suite.description at ran
  obtain ⟨found, ⟨bytes, text, read, decoded, rfl⟩ | ⟨f, unread, other, rfl⟩, ran⟩ :=
    (yields_fileText t _).run_bind.mp ran
  · dsimp only at ran
    split at ran
    · rename_i void
      cases ran
      rw [String.isEmpty_iff] at void
      exact .empty read (void ▸ decoded)
    · rename_i filled
      split at ran
      · cases ran
        exact .parsed read decoded (by simpa using filled) ‹_›
      · cases ran
        exact .malformed read decoded ‹_›
      · cases ran
  · cases ran
    exact .missing unread other

theorem entries_of_fileCases {taken : List Text} {d : Json} {cases : List Case}
    (ran : (Suite.fileCases t s dir taken d).run ws = .ok cases ws') : ∃ es, d = .dict es := by
  cases d with
  | dict es => exact ⟨es, rfl⟩
  | _ => cases ran

/-- The names of the tests that a description gives. -/
def Taken (t : Tree) (s : Suite) (dir : String) (extensions items : List Json) (name : Text) :
    Prop :=
  ∃ item ∈ items.zipIdx 1, ∃ c, Described t s dir extensions item c ∧ c.name = name

/-- No two entries give tests of one name. -/
def Distinct (t : Tree) (s : Suite) (dir : String) (extensions items : List Json) : Prop :=
  (items.zipIdx 1).Pairwise fun a b =>
    ∀ c, Described t s dir extensions a c → ∀ c', Described t s dir extensions b c' →
      c.name ≠ c'.name

section Spec

variable {extensions items : List Json} {keep : Json × Nat → Option Case}
  (spec : ∀ item ∈ items.zipIdx 1, ∀ c, keep item = some c ↔ Described t s dir extensions item c)

include spec

theorem mem_described {c : Case} : c ∈ (items.zipIdx 1).filterMap keep ↔
    ∃ item ∈ items.zipIdx 1, Described t s dir extensions item c := by
  rw [List.mem_filterMap]
  exact exists_congr fun item => and_congr_right fun member => spec item member c

theorem mem_described_names {name : Text} :
    name ∈ ((items.zipIdx 1).filterMap keep).map (·.name) ↔
    Taken t s dir extensions items name := by
  rw [List.mem_map]
  constructor
  · rintro ⟨c, member, named⟩
    obtain ⟨item, member, test⟩ := (mem_described spec).mp member
    exact ⟨item, member, c, test, named⟩
  · rintro ⟨item, member, c, test, named⟩
    exact ⟨c, (mem_described spec).mpr ⟨item, member, test⟩, named⟩

theorem nodup_described_names :
    (((items.zipIdx 1).filterMap keep).map (·.name)).Nodup ↔ Distinct t s dir extensions items := by
  rw [List.nodup_iff_pairwise_ne, List.pairwise_map, List.pairwise_filterMap]
  refine List.Pairwise.iff_of_mem fun {a b} member member' => ?_
  simp only [spec a member, spec b member']

end Spec

namespace Suite

/-- The stages of loading, and what is made of the tests that they give. -/
theorem load_stages {cases : List Case} (loaded : (load t s dir).run ws = .ok cases ws') :
    t.isDirectory dir = true ∧ ∃ d gs fs ws₁ ws₂ ws₃, (description t s dir).run ws = .ok d ws₁ ∧
      (describedCases t s dir d).run ws₁ = .ok gs ws₂ ∧
      (fileCases t s dir (gs.map (·.name)) d).run ws₂ = .ok fs ws₃ ∧
      (((fs ++ gs).map (·.name)).Nodup ∧ cases = (fs ++ gs).mergeSort before ∧ ws' = ws₃ ∨
        ¬ ((fs ++ gs).map (·.name)).Nodup ∧ cases = [] ∧
        ∃ names, ws' = .conflict names :: ws₃) := by
  unfold load at loaded
  split at loaded
  · cases loaded
  rename_i present
  obtain ⟨d, ws₁, described, loaded⟩ := ran_bind loaded
  obtain ⟨gs, ws₂, ofDescription, loaded⟩ := ran_bind loaded
  obtain ⟨fs, ws₃, ofFiles, loaded⟩ := ran_bind loaded
  dsimp only at loaded
  refine ⟨by simpa using present, d, gs, fs, ws₁, ws₂, ws₃, described, ofDescription, ofFiles, ?_⟩
  split at loaded
  · rename_i none
    cases loaded
    exact .inl ⟨conflicts_eq_nil.mp none, rfl, rfl⟩
  · rename_i some
    cases loaded
    exact .inr ⟨fun once => some (conflicts_eq_nil.mpr once), rfl, _, rfl⟩

theorem ran_load {cases : List Case} (loaded : (load t s dir).run ws = .ok cases ws') :
    t.isDirectory dir = true ∧ ∃ d gs fs ws₁ ws₂ ws₃, (description t s dir).run ws = .ok d ws₁ ∧
      (describedCases t s dir d).run ws₁ = .ok gs ws₂ ∧
      (fileCases t s dir (gs.map (·.name)) d).run ws₂ = .ok fs ws₃ ∧ ws₃ <:+ ws' ∧
      (((fs ++ gs).map (·.name)).Nodup ∧ cases = (fs ++ gs).mergeSort before ∨
        ¬ ((fs ++ gs).map (·.name)).Nodup ∧ cases = []) := by
  obtain ⟨present, d, gs, fs, ws₁, ws₂, ws₃, described, ofDescription, ofFiles, ends⟩ :=
    load_stages loaded
  refine ⟨present, d, gs, fs, ws₁, ws₂, ws₃, described, ofDescription, ofFiles, ?_⟩
  rcases ends with ⟨once, sorted, rfl⟩ | ⟨twice, none, names, rfl⟩
  · exact ⟨List.suffix_refl _, .inl ⟨once, sorted⟩⟩
  · exact ⟨List.suffix_cons _ _, .inr ⟨twice, none⟩⟩

/-- Once the stages have ended, only names that stand twice keep tests from being loaded. -/
theorem load_ok_of_stages {d : Json} {gs fs : List Case} {ws₁ ws₂ ws₃ : List Warning}
    (present : t.isDirectory dir = true) (described : (description t s dir).run ws = .ok d ws₁)
    (ofDescription : (describedCases t s dir d).run ws₁ = .ok gs ws₂)
    (ofFiles : (fileCases t s dir (gs.map (·.name)) d).run ws₂ = .ok fs ws₃) :
    ∃ cases ws', (load t s dir).run ws = .ok cases ws' ∧
      (((fs ++ gs).map (·.name)).Nodup → cases = (fs ++ gs).mergeSort before ∧ ws' = ws₃) := by
  unfold load
  rw [if_neg (by simp [present]), EStateM.run_bind, described]
  dsimp only
  rw [EStateM.run_bind, ofDescription]
  dsimp only
  rw [EStateM.run_bind, ofFiles]
  dsimp only
  cases names : conflicts ((fs ++ gs).map (·.name)) with
  | nil => exact ⟨_, _, rfl, fun _ => ⟨rfl, rfl⟩⟩
  | cons n ns =>
    refine ⟨[], .conflict (n :: ns) :: ws₃, rfl, fun once => ?_⟩
    cases names.symm.trans (conflicts_eq_nil.mpr once)

theorem load_of_stages {d : Json} {gs fs : List Case} {ws₁ ws₂ ws₃ : List Warning}
    (present : t.isDirectory dir = true) (described : (description t s dir).run ws = .ok d ws₁)
    (ofDescription : (describedCases t s dir d).run ws₁ = .ok gs ws₂)
    (ofFiles : (fileCases t s dir (gs.map (·.name)) d).run ws₂ = .ok fs ws₃)
    (once : ((fs ++ gs).map (·.name)).Nodup) :
    (load t s dir).run ws = .ok ((fs ++ gs).mergeSort before) ws₃ := by
  obtain ⟨cases, ws', loaded, sorted⟩ := load_ok_of_stages present described ofDescription ofFiles
  obtain ⟨rfl, rfl⟩ := sorted once
  exact loaded

/-- The names of the tests of code files and of the description, before they are sorted. -/
def stageNames (t : Tree) (s : Suite) (dir : String) : Loading (List Text × List Text) := do
  let d ← s.description t dir
  let gs ← describedCases t s dir d
  let fs ← fileCases t s dir (gs.map (·.name)) d
  return (fs.map (·.name), gs.map (·.name))

/-- Names that stand in order tell the names of the tests that are loaded. -/
theorem load_of_stageNames {files entries : List Text} (present : t.isDirectory dir = true)
    (ran : (stageNames t s dir).run ws = .ok (files, entries) ws')
    (ordered : (files ++ entries).Pairwise fun m n => m.length < n.length ∨
      m.length = n.length ∧ m < n) :
    ∃ cases, (load t s dir).run ws = .ok cases ws' ∧ cases.map (·.name) = files ++ entries := by
  obtain ⟨d, _, described, ran⟩ := ran_bind ran
  obtain ⟨gs, _, ofDescription, ran⟩ := ran_bind ran
  obtain ⟨fs, _, ofFiles, ran⟩ := ran_bind ran
  cases ran
  rw [← List.map_append] at ordered ⊢
  have once : ((fs ++ gs).map (·.name)).Nodup := by
    refine ordered.imp fun before same => ?_
    rw [same] at before
    exact before.elim (Nat.lt_irrefl _) fun ⟨_, less⟩ => List.lt_irrefl _ less
  have sorted : (fs ++ gs).mergeSort before = fs ++ gs := by
    refine List.mergeSort_of_pairwise ((List.pairwise_map.mp ordered).imp fun before =>
      before_iff.mpr ?_)
    exact before.imp_right fun ⟨same, less⟩ => ⟨same, List.le_of_lt less⟩
  refine ⟨fs ++ gs, ?_, rfl⟩
  rw [load_of_stages present described ofDescription ofFiles once, sorted]

/-- Of a section are loaded, in strict order, exactly the tests that its description gives and those
of its code files whose names are free, that are chosen and whose files can be read; or nothing, if
two tests of the description have one name. Nothing else is passed by but the entries that give no
test. -/
theorem section_tests_exact {cases : List Case} (proper : t.Proper)
    (plain : Files.Glob.isPattern dir = false) (loaded : (load t s dir).run [] = .ok cases ws)
    (typed : ∀ m, .description m ∉ ws) :
    (cases.map (·.name)).Nodup ∧
    cases.Pairwise (fun a b => a.name.length < b.name.length ∨
      a.name.length = b.name.length ∧ a.name < b.name) ∧
    ∃ es extensions items l, Describes t s.nesting dir (.dict es) ∧
      elementsOf es "extensions" = pure extensions ∧
      elementsOf es "tests" = pure items ∧ t.locate dir = .ok l ∧
      (∀ item ∈ items.zipIdx 1, ∃ entries, item.1 = .dict entries ∧
        (Skips t s dir item.2 entries ∨ ∃ c, Accepts t s dir extensions item.2 entries c)) ∧
      (∀ name, Wanted t s dir l (Taken t s dir extensions items) name →
        ((∃ c, FileTest t s dir extensions name c) ↔ Sound t dir name)) ∧
      (Distinct t s dir extensions items → ∀ c, c ∈ cases ↔
        (∃ item ∈ items.zipIdx 1, Described t s dir extensions item c) ∨
          ∃ name, Wanted t s dir l (Taken t s dir extensions items) name ∧
            FileTest t s dir extensions name c) ∧
      (¬ Distinct t s dir extensions items → cases = []) := by
  obtain ⟨present, d, gs, fs, _, ws₂, ws₃, described, ofDescription, ofFiles, kept, ends⟩ :=
    ran_load loaded
  obtain ⟨l, located, directory⟩ := Tree.names_of_isDirectory present
  obtain ⟨es, rfl⟩ := entries_of_fileCases ofFiles
  obtain ⟨adds, onceFiles, extensions, required, memberFiles, sound⟩ :=
    fileCases_ok proper plain located directory ofFiles
  obtain ⟨_, extensions', items, keep, ⟨⟩, required', given, rfl, spec, whole⟩ :=
    (describedCases_ok ofDescription).resolve_left fun ⟨m, warned⟩ =>
      typed m ((adds.trans kept).subset warned)
  obtain rfl := pure_inj (required.symm.trans required')
  have taken : (· ∈ ((items.zipIdx 1).filterMap keep).map (·.name)) =
      Taken t s dir extensions items :=
    funext fun name => propext (mem_described_names spec)
  rw [taken] at memberFiles sound
  have distinct : ((fs ++ (items.zipIdx 1).filterMap keep).map (·.name)).Nodup ↔
      Distinct t s dir extensions items := by
    -- code files have names of their own that are not taken, so that only the description can
    -- repeat one
    rw [List.map_append, List.nodup_append, nodup_described_names spec]
    refine ⟨fun once => once.2.1, fun once => ⟨onceFiles, once, ?_⟩⟩
    rintro n member _ member' rfl
    obtain ⟨c, found, rfl⟩ := List.mem_map.mp member
    obtain ⟨name, wanted, test⟩ := (memberFiles c).mp found
    exact wanted.free (test.name ▸ (mem_described_names spec).mp member')
  have files (name : String) (wanted : Wanted t s dir l (Taken t s dir extensions items) name) :
      (∃ c, FileTest t s dir extensions name c) ↔ Sound t dir name :=
    ⟨fun ⟨_, test⟩ => test.sound, sound name wanted⟩
  rw [distinct] at ends
  rcases ends with ⟨once, rfl⟩ | ⟨twice, rfl⟩
  · refine ⟨?_, pairwise_lt (distinct.mpr once), es, extensions, items, l, description_ok described,
      required, given, located, whole, files, fun _ c => ?_, fun twice => absurd once twice⟩
    · exact ((List.mergeSort_perm _ before).map _).nodup_iff.mpr (distinct.mpr once)
    · rw [List.mem_mergeSort, List.mem_append, mem_described spec, memberFiles, or_comm]
  · exact ⟨List.nodup_nil, .nil, es, extensions, items, l, description_ok described, required,
      given, located, whole, files, fun once => absurd once twice, fun _ => rfl⟩

/-- A section with an entry for a code file, an entry that gives both a name and code, an entry
without a name, and two code files more, of which one has an exit code that is not an integer. -/
def mixedSection : Tree where
  top := "/"
  nodes := [(["mixed"], .directory),
    (["tests.json", "mixed"], .file (Utf8.encode ("\x7b\"tests\": [\x7b\"name\": \"b\"\x7d, " ++
      "\x7b\"name\": \"a\", \"code\": \"1\"\x7d, \x7b\"code\": \"2\"\x7d]\x7d"))),
    (["a.code", "mixed"], .file (Utf8.encode "3")), (["b.code", "mixed"], .file (Utf8.encode "4")),
    (["c.code", "mixed"], .file (Utf8.encode "5")),
    (["c.cexitcode", "mixed"], .file (Utf8.encode "none"))]

def wholeSuite : Suite := ⟨"/", .int 5, [], 985⟩

def mixedWarnings : List Warning :=
  [.file "mixed/c.code" "invalid literal for int() with base 10: 'none'",
    .redefined "a" "mixed/tests.json"]

/-- The value that a run gives, with the warnings. -/
def given? : EStateM.Result LoadFault (List Warning) α → Option (α × List Warning)
  | .ok a ws => some (a, ws)
  | .error _ _ => none

theorem eq_ok_of_given? {r : EStateM.Result LoadFault (List Warning) α} {a : α}
    (given : given? r = some (a, ws)) :
    r = .ok a ws := by
  cases r with
  | ok => cases given; rfl
  | error => cases given

theorem mixedNames_run : (stageNames mixedSection wholeSuite "mixed").run [] =
     .ok ([Text.ofString "a"], ["b", "003"].map Text.ofString) mixedWarnings := by
  have paths : inOrder (Files.Glob.paths mixedSection (Files.join "mixed" "*.code")) =
      ["mixed/a.code", "mixed/b.code", "mixed/c.code"] := by
    rw [show Files.Glob.paths mixedSection (Files.join "mixed" "*.code") =
      ["mixed/a.code", "mixed/b.code", "mixed/c.code"] by decide +kernel]
    exact List.mergeSort_of_pairwise (by decide)
  refine eq_ok_of_given? ?_
  unfold stageNames fileCases
  simp only [paths]
  decide +kernel

theorem mixedSection_exact : ∃ cases, mixedSection.Proper ∧ Files.Glob.isPattern "mixed" = false ∧
    (load mixedSection wholeSuite "mixed").run [] = .ok cases mixedWarnings ∧
    (∀ m, .description m ∉ mixedWarnings) ∧
    cases.map (·.name) = ["a", "b", "003"].map Text.ofString ∧
    ∃ extensions items l, Distinct mixedSection wholeSuite "mixed" extensions items ∧
      ∀ c, c ∈ cases ↔
        (∃ item ∈ items.zipIdx 1, Described mixedSection wholeSuite "mixed" extensions item c) ∨
        ∃ name, Wanted mixedSection wholeSuite "mixed" l
        (Taken mixedSection wholeSuite "mixed" extensions items) name ∧
          FileTest mixedSection wholeSuite "mixed" extensions name c := by
  have proper : mixedSection.Proper := ⟨by decide, by decide⟩
  have plain : Files.Glob.isPattern "mixed" = false := by decide
  have typed (m : Mismatch) : .description m ∉ mixedWarnings := by simp [mixedWarnings]
  obtain ⟨cases, loaded, names⟩ := load_of_stageNames (by decide +kernel) mixedNames_run (by decide)
  obtain ⟨-, -, es, extensions, items, l, -, -, -, -, -, -, exact, none⟩ :=
    section_tests_exact proper plain loaded typed
  have distinct : Distinct mixedSection wholeSuite "mixed" extensions items := by
    by_contra twice
    rw [none twice] at names
    cases names
  exact ⟨cases, proper, plain, loaded, typed, names, extensions, items, l, distinct, exact distinct⟩

end Suite

end Bench
end TacBench
