import TacBench.Proofs.RemovedFiles
import TacBench.Proofs.Uploads

/-! The directory for logs, as a run leaves it before its first test. Of all that is below it only
the token can be left, and only if it stands directly in the directory and its path is the one that
is made for its name there. -/
namespace TacBench.Bench

open Files

variable {s u : Run} {dir token name : String} {d : Location} {names : List String}

/-- What is not removed from a directory: a file whose path is exactly that of the token. -/
def Spared (t : Tree) (dir token : String) (d k : Location) : Prop :=
  ∃ name, k = name :: d ∧ join dir name = token ∧ t.node? k ≠ some .directory

/-- The names were removed from the directory, and nothing else was done. -/
def Removes (s : Run) (dir token : String) (d : Location) (names : List String) (u : Run) : Prop :=
  ∃ files, u = { s with files } ∧ Tree.Cleared d (Spared s.files dir token d) names s.files files

/-- Some names were removed, and then one could not be reached. -/
def Stops (s : Run) (dir token : String) (d : Location) (u : Run) : Prop :=
  ¬ s.files.Direct dir d ∧ ∃ names, Removes s dir token d names u

section Change

variable {g : Tree → Except Files.Fault Tree} {failed : Fault → Run → Prop}
  {done : Unit → Run → Prop}

theorem changing_done {files : Tree} (changed : g u.files = .ok files)
    (holds : done () { u with files }) :
    Leads (changing g) u failed done := by
  refine .look ?_
  rw [changed]
  exact .of_ok rfl holds

theorem changing_refused {fault : Files.Fault} (refused : g u.files = .error fault)
    (holds : failed (.file fault) u) :
    Leads (changing g) u failed done := by
  refine .look ?_
  rw [refused]
  exact .of_error rfl holds

end Change

section Step

variable (sound : s.files.Sound) (located : s.files.locate dir = .ok d)
  (child : name ∈ s.files.children d) (removes : Removes s dir token d names u)
include sound located child removes

theorem removeLog_leads (file : s.files.node? (name :: d) ≠ some .directory) (new : name ∉ names) :
    Leads (removeLog dir token name) u (fun _ v => Stops s dir token d v)
      (fun _ v => Removes s dir token d (names ++ [name]) v) := by
  obtain ⟨files, rfl, cleared⟩ := removes
  unfold removeLog
  dsimp only
  split
  · rename_i other
    have unspared (k : Location) (under : name :: d <:+ k) : ¬ Spared s.files dir token d k := by
      rintro ⟨name', rfl, same, -⟩
      cases under.eq_of_length (by simp)
      exact other same
    -- the name has not been dealt with, so that its file is still there
    have there : files.node? (name :: d) = s.files.node? (name :: d) := by
      refine cleared.kept _ ?_
      rintro ⟨name', member, under⟩
      cases under.eq_of_length (by simp)
      exact absurd member new
    rcases cleared.locate_child sound located child with found | ⟨indirect, fault, lost⟩
    · have unlinked : files.unlink (join dir name) = .ok (files.erase (name :: d)) := by
        cases node : s.files.node? (name :: d) with
        | none => exact absurd node (Tree.node?_of_child child)
        | some n =>
          rw [node] at there file
          cases n with
          | directory => exact absurd rfl file
          | _ => simp only [Tree.unlink, found, bind, Except.bind, there]
      exact changing_done unlinked ⟨_, rfl, cleared.erase unspared⟩
    · have refused : files.unlink (join dir name) = .error fault := by
        simp only [Tree.unlink, lost, bind, Except.bind]
      exact changing_refused refused ⟨indirect, names, files, rfl, cleared⟩
  · rename_i same
    rw [not_not] at same
    exact .of_ok rfl ⟨files, rfl, cleared.spare sound file ⟨name, rfl, same, file⟩⟩

theorem removeLogs_leads (directory : s.files.node? (name :: d) = some .directory) :
    Leads (removeLogs dir name) u (fun _ v => Stops s dir token d v)
      (fun _ v => Removes s dir token d (names ++ [name]) v) := by
  obtain ⟨files, rfl, cleared⟩ := removes
  have unspared (k : Location) (under : name :: d <:+ k) : ¬ Spared s.files dir token d k := by
    rintro ⟨name', rfl, -, file⟩
    cases under.eq_of_length (by simp)
    exact file directory
  rcases cleared.locate_child sound located child with found | ⟨indirect, fault, lost⟩
  · refine changing_done ?_ ⟨_, rfl, cleared.erase unspared⟩
    simp only [found, bind, Except.bind, pure, Except.pure]
  · have refused : (files.locate (join dir name)).bind (fun l => .ok (files.erase l)) =
        .error fault := by
      rw [lost]
      rfl
    exact changing_refused refused ⟨indirect, names, files, rfl, cleared⟩

end Step

/-- Clearing goes through all names in the directory, unless the way to it is not direct. -/
theorem clearLogs_removes (sound : s.files.Sound) (located : s.files.locate dir = .ok d)
    (token : String) :
    Leads (clearLogs dir token) s (fun _ u => Stops s dir token d u)
      (fun _ u => ∃ names, (∀ name ∈ s.files.children d, name ∈ names) ∧
        Removes s dir token d names u) := by
  refine .look ?_
  dsimp only
  rw [located]
  dsimp only
  have once := sound.proper.nodup_children d
  generalize firsts : (s.files.children d).filter (fun name =>
    s.files.node? (name :: d) != some .directory) = first
  generalize seconds : (s.files.children d).filter (fun name =>
    s.files.node? (name :: d) == some .directory) = second
  have files : Leads (first.forM (removeLog dir token)) s (fun _ u => Stops s dir token d u)
      (fun _ u => Removes s dir token d first u) := by
    refine .forM_parts (fun before name after whole u removes => ?_) ⟨s.files, rfl, .none _ _ _⟩
    have member : name ∈ first := by simp [whole]
    have new : name ∉ before := by
      have once : first.Nodup := firsts ▸ once.filter _
      rw [whole, List.nodup_append] at once
      exact fun earlier => once.2.2 name earlier name List.mem_cons_self rfl
    rw [← firsts, List.mem_filter] at member
    exact removeLog_leads sound located member.1 removes (by simpa using member.2) new
  have directories {u : Run} (removes : Removes s dir token d first u) :
      Leads (second.forM (removeLogs dir)) u (fun _ v => Stops s dir token d v)
        (fun _ v => Removes s dir token d (first ++ second) v) := by
    refine .forM (fun name member before u removes => ?_) first removes
    rw [← seconds, List.mem_filter] at member
    exact removeLogs_leads sound located member.1 removes (by simpa using member.2)
  refine .bind (files.imp (fun _ _ stops => stops) fun _ u removes => ?_)
  refine (directories removes).imp (fun _ _ stops => stops) fun _ v removes =>
    ⟨first ++ second, ?_, removes⟩
  intro name child
  rw [List.mem_append, ← firsts, ← seconds, List.mem_filter, List.mem_filter]
  by_cases directory : s.files.node? (name :: d) = some .directory
  · exact .inr ⟨child, by simp [directory]⟩
  · exact .inl ⟨child, by simp [directory]⟩

/-! Up to the clearing, a run only looks at the files. -/

/-- The file from which extensions are read. -/
def extensionsPath? (t : Tree) (o : Options) : Option String :=
  match given o.extensionsFile with
  | some path => if t.isFile path then some path else none
  | none => (extensionsPlaces t o.compiler).find? t.isFile

/-- The options are fit for a run, and what has to be read can be read. -/
structure Ready (o : Options) (s : Run) : Prop where
  compiler : isExecutable s o.compiler = true
  interpreter : o.noInterpreter = false → isExecutable s o.interpreter = true
  timeout : isPositive o.timeout = true
  suite : ∃ suite ws, (Suite.opened s.files o.testsDirectory o.timeout o.wildcards
    s.platform.nesting).run [] = .ok suite ws
  extensions : ∀ path, extensionsPath? s.files o = some path →
    ∃ text ws, (fileText s.files path).run [] = .ok text ws

theorem findExtensions_leads (o : Options) (s : Run) :
    Leads (findExtensions o) s
      (fun _ u => (∃ path f ws, extensionsPath? s.files o = some path ∧
        (fileText s.files path).run [] = .error f ws) ∧
        ∃ log, u = { s with log })
      (fun _ u => (∀ path, extensionsPath? s.files o = some path →
        ∃ text ws, (fileText s.files path).run [] = .ok text ws) ∧ ∃ log, u = { s with log }) := by
  have reads {path : String} (chosen : extensionsPath? s.files o = some path) :
      Leads (do let text ← loading fun t => fileText t path; return distinctWords (text.getD "")) s
        (fun _ u => (∃ path f ws, extensionsPath? s.files o = some path ∧
          (fileText s.files path).run [] = .error f ws) ∧ ∃ log, u = { s with log })
        (fun _ u => (∀ path, extensionsPath? s.files o = some path →
          ∃ text ws, (fileText s.files path).run [] = .ok text ws) ∧
          ∃ log, u = { s with log }) := by
    refine .bind ((loading_outcome s).imp ?_ ?_)
    · rintro _ _ ⟨⟨f, ws, failed⟩, logged⟩
      exact ⟨⟨path, f, ws, chosen, failed⟩, logged⟩
    · rintro text _ ⟨⟨ws, read⟩, logged⟩
      refine .of_ok rfl ⟨fun path' chosen' => ?_, logged⟩
      cases chosen.symm.trans chosen'
      exact ⟨text, ws, read⟩
  have unread {P : String → Prop} (none : extensionsPath? s.files o = none) :
      ∀ path, extensionsPath? s.files o = some path → P path := by
    intro path chosen
    cases none.symm.trans chosen
  refine .look ?_
  dsimp only
  cases named : given o.extensionsFile with
  | some path =>
    dsimp only
    split
    · rename_i file
      have chosen : extensionsPath? s.files o = some path := by simp [extensionsPath?, named, file]
      exact .bind ((reads chosen).imp (fun _ _ failed => failed) fun _ _ read => .of_ok rfl read)
    · rename_i missing
      refine Upload.logged_leads fun log => .of_ok rfl ⟨unread ?_, log, rfl⟩
      simp [extensionsPath?, named, missing]
  | none =>
    dsimp only
    split
    · rename_i path found
      have chosen : extensionsPath? s.files o = some path := by simp [extensionsPath?, named, found]
      exact .bind ((reads chosen).imp (fun _ _ failed => failed) fun _ _ read => .of_ok rfl read)
    · rename_i missing
      refine .of_ok rfl ⟨unread ?_, s.log, rfl⟩
      simp only [extensionsPath?, named, missing]

/-! The preparation of a run. -/

namespace Runner

/-- The path of the directory for logs. -/
def logPath (t : Tree) (o : Options) : String :=
  (given o.logDirectory).getD (join (directory (t.absolute o.compiler)) "log")

/-- The path of the token. -/
def tokenPath (t : Tree) (o : Options) : String :=
  (given o.tokenFile).getD (join (logPath t o) ".TOKEN")

/-- What the clearing does to the files. -/
def Clears (t : Tree) (o : Options) (d : Location) (names : List String) (t' : Tree) : Prop :=
  t.locate (logPath t o) = .ok d ∧
    Tree.Cleared d (Spared t (logPath t o) (tokenPath t o) d) names t t'

theorem prepare_clears (o : Options) (s : Run) (sound : s.files.Sound) :
    Leads (Runner.prepare o) s
      (fun _ u => u.files = s.files ∧ (Ready o s → s.files.exists? (logPath s.files o) = false) ∨
        ∃ d names, ¬ s.files.Direct (logPath s.files o) d ∧ Clears s.files o d names u.files)
      (fun _ u => Ready o s ∧
        ((∃ d names, s.files.node? d ≠ none ∧ (∀ name ∈ s.files.children d, name ∈ names) ∧
          Clears s.files o d names u.files) ∨
          s.files.makeDirectory (logPath s.files o) = .ok u.files)) := by
  refine .look ?_
  dsimp only
  split
  · rename_i refused
    exact .of_error rfl (.inl ⟨rfl, fun ready => by simp [ready.compiler] at refused⟩)
  rename_i compiler
  split
  · rename_i refused
    rw [Bool.and_eq_true, Bool.not_eq_true', Bool.not_eq_true'] at refused
    exact .of_error rfl (.inl ⟨rfl, fun ready => by simp [ready.interpreter refused.1] at refused⟩)
  rename_i interpreter
  split
  · rename_i refused
    exact .of_error rfl (.inl ⟨rfl, fun ready => by simp [ready.timeout] at refused⟩)
  rename_i timeout
  refine .bind ((loading_outcome s).imp ?_ ?_)
  · rintro _ _ ⟨⟨f, ws, failed⟩, log, rfl⟩
    refine .inl ⟨rfl, fun ready => ?_⟩
    obtain ⟨suite, ws', opened⟩ := ready.suite
    cases failed.symm.trans opened
  rintro suite _ ⟨⟨ws, opened⟩, log, rfl⟩
  refine .bind ((findExtensions_leads o _).imp ?_ ?_)
  · rintro _ _ ⟨⟨path, f, ws, chosen, failed⟩, log', rfl⟩
    refine .inl ⟨rfl, fun ready => ?_⟩
    obtain ⟨text, ws', read⟩ := ready.extensions path chosen
    cases failed.symm.trans read
  rintro ⟨extensions, extensionsFrom⟩ _ ⟨extensions, log', rfl⟩
  have ready : Ready o s :=
    ⟨by simpa using compiler, by simpa using interpreter, by simpa using timeout, ⟨suite, ws,
      opened⟩, extensions⟩
  refine Upload.logged_leads fun log => .look (.bind (.of_ok rfl ?_))
  split
  · rename_i there
    obtain ⟨d, located, some⟩ : ∃ d, s.files.locate (logPath s.files o) = .ok d ∧
        s.files.node? d ≠ none :=
      Tree.located_of_exists there
    refine .bind (Leads.imp (clearLogs_removes (d := d) ?_ ?_ _) ?_ ?_)
    · exact sound
    · exact located
    · rintro _ _ ⟨indirect, names, files, rfl, cleared⟩
      exact .inr ⟨d, names, indirect, located, cleared⟩
    · rintro _ _ ⟨names, every, files, rfl, cleared⟩
      exact .of_ok rfl ⟨ready, .inl ⟨d, names, some, every, located, cleared⟩⟩
  · rename_i missing
    refine .bind ((changing_leads _ _).imp ?_ ?_)
    · rintro _ _ rfl
      exact .inl ⟨rfl, fun _ => Bool.eq_false_iff.mpr missing⟩
    · rintro _ _ ⟨files, made, rfl⟩
      exact .of_ok rfl ⟨ready, .inr made⟩

/-- The token is not among the logs, or it stands directly there and its path is the one that is
made of its name. -/
def Guarded (t : Tree) (o : Options) (d l : Location) : Prop :=
  Below d l → ∃ name, l = name :: d ∧ join (logPath t o) name = tokenPath t o

section Token

variable {t t' : Tree} {o : Options} {d l k : Location} {content : List UInt8} {names : List String}
  (located : t.locate (tokenPath t o) = .ok l) (there : t.node? l = some (.file content))
include located

/-- What is spared is the token, if there is anything. -/
theorem eq_of_spared (sound : t.Sound) (logs : t.locate (logPath t o) = .ok d)
    (spared : Spared t (logPath t o) (tokenPath t o) d k) (some : t.node? k ≠ none) : k = l := by
  obtain ⟨name, rfl, same, -⟩ := spared
  have listed : name :: d ∈ t.nodes.keys := by
    rwa [Ne, Tree.node?_eq_none_iff (List.cons_ne_nil _ _), not_not] at some
  have named := sound.named _ listed name List.mem_cons_self
  rw [← same, Tree.locate_join (Tree.locate_eq_ok.mp logs).2.1 named] at located
  obtain ⟨d', rfl, logs', -⟩ := located
  cases logs.symm.trans logs'
  rfl

theorem guarded_of_default (default : given o.tokenFile = none)
    (logs : t.locate (logPath t o) = .ok d) :
    Guarded t o d l := by
  have path : join (logPath t o) ".TOKEN" = tokenPath t o := by rw [tokenPath, default,
    Option.getD_none]
  rw [← path, Tree.locate_join (Tree.locate_eq_ok.mp logs).2.1 (by decide)] at located
  obtain ⟨d', rfl, logs', -⟩ := located
  cases logs.symm.trans logs'
  exact fun _ => ⟨".TOKEN", rfl, path⟩

include there
omit located

theorem spared_of_guarded (guarded : Guarded t o d l) (below : Below d l) :
    Spared t (logPath t o) (tokenPath t o) d l := by
  obtain ⟨name, rfl, same⟩ := guarded below
  exact ⟨name, rfl, same, by simp [there]⟩

end Token

/-- A run is prepared only if its options are fit. Then of all that was below the directory for logs
only the token is left, and if it is left depends on how its path is written: it stays if it is not
below the directory, or if it stands directly in it and its path is that of the directory with its
name behind; so the one that is taken by default stays. What is not below the directory stays as it
was, and the directory is made if there was none. The preparation leaves the files as they are if it
fails before; in the middle it can fail only if the path of the directory leads back or is too long,
and then a token that would stay has stayed. -/
theorem token_kept_iff (o : Options) (s : Run) (sound : s.files.Sound) {l : Location}
    {content : List UInt8} (located : s.files.locate (tokenPath s.files o) = .ok l)
    (there : s.files.node? l = some (.file content)) :
    Leads (Runner.prepare o) s
      (fun _ u => u.files = s.files ∧ (Ready o s → s.files.exists? (logPath s.files o) = false) ∨
        ∃ d, s.files.locate (logPath s.files o) = .ok d ∧ ¬ s.files.Direct (logPath s.files o) d ∧
          (Guarded s.files o d l → u.files.node? l = some (.file content)) ∧
          ∀ k, ¬ Below d k → u.files.node? k = s.files.node? k)
      (fun _ u => Ready o s ∧ ∃ d, s.files.locate (Tree.bare (logPath s.files o)) = .ok d ∧
        (u.files.node? l = some (.file content) ↔ Guarded s.files o d l) ∧
        (given o.tokenFile = none → Guarded s.files o d l) ∧
        (∀ k, Below d k → k ≠ l → u.files.node? k = none) ∧
        ∀ k, ¬ Below d k →
          u.files.node? k = if k = d ∧ s.files.node? d = none then some .directory
          else s.files.node? k) := by
  refine (prepare_clears o s sound).imp ?_ ?_
  · rintro _ u (unchanged | ⟨d, names, indirect, logs, cleared⟩)
    · exact .inl unchanged
    · refine .inr ⟨d, logs, indirect, fun guarded => ?_, fun k apart => ?_⟩
      · exact (cleared.outside (spared_of_guarded there guarded)).trans there
      · exact cleared.outside fun below => absurd below apart
  · rintro _ u ⟨ready, ⟨d, names, some, every, logs, cleared⟩ | made⟩
    · refine ⟨ready, d, Tree.locate_bare logs, ⟨?_, ?_⟩, fun default =>
        guarded_of_default located default logs, ?_, ?_⟩
      · intro kept below
        by_contra unguarded
        have gone := cleared.all sound every below fun ⟨name, own, same, _⟩ =>
          unguarded ⟨name, own, same⟩
        cases kept.symm.trans gone
      · intro guarded
        exact (cleared.outside (spared_of_guarded there guarded)).trans there
      · intro k below other
        by_cases spared : Spared s.files (logPath s.files o) (tokenPath s.files o) d k
        · have none : s.files.node? k = none := by
            by_contra some
            exact other (eq_of_spared located sound logs spared some)
          rw [cleared.outside fun _ => spared, none]
        · exact cleared.all sound every below spared
      · intro k apart
        rw [if_neg fun both => some both.2]
        exact cleared.outside fun below => absurd below apart
    · obtain ⟨d, logs, free, node⟩ := Tree.makeDirectory_ok made
      have empty {k : Location} (below : Below d k) : s.files.node? k = none :=
        sound.none_below (by simp [free]) below
      have guarded : Guarded s.files o d l := fun below => by
        cases (empty below).symm.trans there
      have other : d ≠ l := by
        rintro rfl
        cases free.symm.trans there
      refine ⟨ready, d, logs, ⟨fun _ => guarded, fun _ => ?_⟩, fun _ => guarded, ?_, ?_⟩
      · rw [node, if_neg other, there]
      · intro k below _
        rw [node, if_neg below.2, empty below]
      · intro k _
        rw [node]
        refine if_congr ⟨fun same => ⟨same.symm, free⟩, fun both => both.1.symm⟩ rfl rfl

/-- Options that name a directory for logs, and a token or none. -/
def logOptions (tokenFile : Option String) : Options :=
  { smallRunner.options with
    timeout := .float (.finite false 1), logDirectory := some "log", tokenFile }

/-- Logs of an earlier run, with two tokens among them. -/
def loggedRun : Run :=
  { smallRun with
    files := {
      top := "/"
      nodes := [(["compiler"], .file []), (["interpreter"], .file []), (["tests"], .directory),
        (["log"], .directory), ([".TOKEN", "log"], .file [116]), (["keys", "log"], .directory),
        (["token", "keys", "log"], .file [116]), (["old", "log"], .file [])] }
    executables := ["compiler", "interpreter"] }

theorem default_token_kept :
    (loggedRun.files.Sound ∧
      loggedRun.files.locate (tokenPath loggedRun.files (logOptions none)) = .ok [".TOKEN", "log"] ∧
      loggedRun.files.node? [".TOKEN", "log"] = some (.file [116])) ∧
    ∃ r u, (Runner.prepare (logOptions none)).run loggedRun = .ok r u ∧
      u.files.node? [".TOKEN", "log"] = some (.file [116]) ∧
      u.files.node? ["token", "keys", "log"] = none := by
  have sound : loggedRun.files.Sound := ⟨by decide +kernel, by decide +kernel, by decide +kernel⟩
  have located : loggedRun.files.locate (tokenPath loggedRun.files (logOptions none)) =
      .ok [".TOKEN", "log"] :=
    eq_ok_of_toOption (by decide +kernel)
  have logs : loggedRun.files.locate (Tree.bare (logPath loggedRun.files (logOptions none))) =
      .ok ["log"] :=
    eq_ok_of_toOption (by decide +kernel)
  have ended :
      (ended? ((Runner.prepare (logOptions none)).run loggedRun)).isSome = true := by decide +kernel
  refine ⟨⟨sound, located, rfl⟩, ?_⟩
  cases ran : (Runner.prepare (logOptions none)).run loggedRun with
  | error f u =>
    rw [ran] at ended
    cases ended
  | ok r u =>
    obtain ⟨-, d, logs', kept, default, cleared, -⟩ :=
      (token_kept_iff (logOptions none) loggedRun sound located rfl).ok ran
    cases logs.symm.trans logs'
    exact ⟨r, u, rfl, kept.mpr (default rfl),
      cleared _ ⟨⟨["token", "keys"], rfl⟩, by decide⟩ (by decide)⟩

/-- Whether there is a token of this path before a run is prepared, and after that. -/
def tokenStays (path : String) : Bool × Option Bool :=
  (loggedRun.files.isFile path,
    (ended? ((Runner.prepare (logOptions (some path))).run loggedRun)).map (·.files.isFile path))

/-- The same token is removed if its path is written in another way, and so is one in a directory of
its own. -/
theorem respelled_token_removed :
    tokenStays "./log/.TOKEN" =
      (true, some false) ∧ tokenStays "log/keys/token" = (true, some false) := by
  decide +kernel

end Runner
end TacBench.Bench
