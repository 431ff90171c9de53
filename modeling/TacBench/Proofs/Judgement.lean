import TacBench.Proofs.Outcomes
import TacBench.Proofs.Replay
import TacBench.Proofs.Tally

/-! How a test is judged. Whichever of its stages ends a test, exactly one report is saved of it,
and all the ways to end follow one rule: the compiler and then the interpreter must do what the test
expects of them, as far as they are asked. A program whose output cannot be read has not done so. -/
namespace TacBench.Bench

/-! What is logged of a test is held back until its end. -/
namespace Log

variable {l h : Log}

/-- The log `h` shows what `l` shows, and holds back what is logged. -/
structure Holds (l h : Log) : Prop where
  held : h.held ≠ none
  shown : h.shown = l.shown
  verbose : h.verbose = l.verbose

/-- Something has been held back already. -/
structure Keeps (l h : Log) : Prop extends Holds l h where
  some : h.held ≠ .some []

theorem Holds.emit (holds : Holds l h) (piece : Text) : Keeps l (h.emit piece) := by
  obtain ⟨pieces, held⟩ := Option.ne_none_iff_exists'.mp holds.held
  constructor
  · constructor <;> simp [Log.emit, held, holds.shown, holds.verbose]
  · simp [Log.emit, held]

theorem Holds.put (holds : Holds l h) (tabs : Nat) (text : Text) (ends : Bool) :
    Keeps l (h.put tabs text ends) := by
  have second (t : Text) : Keeps l ((h.emit (List.replicate tabs (.char '\t'))).emit t) :=
    (holds.emit _).toHolds.emit t
  have third (t u : Text) := (second t).toHolds.emit u
  have fourth (t u v : Text) := (third t u).toHolds.emit v
  simp only [Log.put, emit_colors]
  cases h.colors <;> cases ends
  · exact second _
  · exact third _ _
  · exact third _ _
  · exact fourth _ _ _

theorem keeps_beginCase (l : Log) (name info : Text) : Keeps l (l.beginCase name info) := by
  have empty : Holds l l.hold := ⟨nofun, rfl, rfl⟩
  exact empty.put _ _ _

theorem Keeps.marked (keeps : Keeps l h) (success skipped : Bool) :
    Keeps l { h with success, skipped } :=
  ⟨⟨keeps.held, keeps.shown, keeps.verbose⟩, keeps.some⟩

theorem Keeps.line (keeps : Keeps l h) (styles : List Style) (text : Text) :
    Keeps l (h.line styles text) :=
  keeps.toHolds.put 0 (styled styles text) true

theorem Keeps.piece (keeps : Keeps l h) (styles : List Style) (text : Text) :
    Keeps l (h.piece styles text) :=
  keeps.toHolds.put 0 (styled styles text) false

theorem Keeps.failCase (keeps : Keeps l h) (result : Text) : Keeps l (h.failCase result) :=
  (keeps.marked false h.skipped).piece _ _

theorem Keeps.passStage (keeps : Keeps l h) : Keeps l h.passStage :=
  (keeps.marked true h.skipped).piece _ _

theorem Keeps.price (keeps : Keeps l h) (instructions operands : Int) (reference : Json) :
    Keeps l (h.price instructions operands reference) := by
  unfold Log.price
  dsimp only
  split
  · exact keeps.piece _ _
  · exact (keeps.piece _ _).piece _ _

/-- What is held back of a test at its end: what was logged of it, and the end of the line. -/
def buffer (h : Log) : List Text := (h.line [] []).held.getD []

/-- The log with other marks, which do not matter for what is logged. -/
def marked (h : Log) (success skipped : Bool) : Log := { h with success, skipped }

theorem emit_marked (h : Log) (success skipped : Bool) (piece : Text) :
    (h.marked success skipped).emit piece = (h.emit piece).marked success skipped := by
  cases held : h.held <;> simp [Log.emit, marked, held]

theorem line_marked (h : Log) (success skipped : Bool) (styles : List Style) (text : Text) :
    (h.marked success skipped).line styles text = (h.line styles text).marked success skipped := by
  have colors (h : Log) : (h.marked success skipped).colors = h.colors := rfl
  simp only [Log.line, Log.put, emit_marked, emit_colors, colors]
  cases h.colors <;> simp only [emit_marked, if_true, Bool.false_eq_true, if_false]

theorem Keeps.buffer_ne_nil (keeps : Keeps l h) : h.buffer ≠ [] := by
  have ended := keeps.line [] []
  obtain ⟨pieces, held⟩ := Option.ne_none_iff_exists'.mp ended.held
  rw [buffer, held]
  rintro rfl
  exact ended.some held

/-- When a test ends, nothing is held back any more, and what was is shown if asked for. -/
theorem Keeps.endCase (keeps : Keeps l h) (success skipped : Bool) :
    (h.marked success skipped).endCase.held = none ∧
      (h.marked success skipped).endCase.shown =
        if l.verbose = true ∨ success = false ∧ skipped = false then h.buffer.reverse ++ l.shown
        else l.shown := by
  have ended := keeps.line [] []
  refine ⟨rfl, ?_⟩
  simp only [Log.endCase, line_marked]
  change (if (h.line [] []).verbose || !success && !skipped then
    h.buffer.reverse ++ (h.line [] []).shown else (h.line [] []).shown) = _
  rw [ended.shown, ended.verbose]
  cases l.verbose <;> cases success <;> cases skipped <;> rfl

end Log

/-! What comes of a program that is started. -/

/-- A length of time: a number that is not negative, and neither infinite nor undefined. -/
def Waitable : Json → Prop
  | .null | .bool _ => True
  | .int n => 0 ≤ n ∧ (Binary64.ofInt? n).isSome = true
  | .float x => ∃ units, x = .finite false units ∨ x = .finite true 0
  | _ => False

/-- The program takes its input and ends in its time, and both its outputs can be read. -/
structure Finishes (p : Platform) (l : Launch) (input timeout : Json) (stdout stderr : Text)
    (exit : Int) : Prop where
  handed : ∃ text bytes, input = .str text ∧ Utf8.encodeText text = .ok bytes
  waited : p.checksTimeouts = true → Waitable timeout
  ended : ∃ out err, l = .ended out err exit ∧ RawEscape.decode out = .ok stdout ∧
    RawEscape.decode err = .ok stderr

theorem waitFault?_eq_none {p : Platform} {timeout : Json} :
    p.waitFault? timeout = none ↔ (p.checksTimeouts = true → Waitable timeout) := by
  unfold Platform.waitFault?
  cases p.checksTimeouts with
  | false => simp
  | true =>
    cases timeout with
    | int n => cases rounded : Binary64.ofInt? n <;> simp [Waitable, rounded]
    | float x =>
      cases x with
      | nan => simp [Waitable]
      | infinite negative => simp [Waitable]
      | finite negative units => cases negative <;> simp [Waitable]
    | _ => simp [Waitable]

theorem inputText_eq_ok {input : Json} {text : String} : inputText input = .ok text ↔
    ∃ t bytes, input = .str t ∧ Utf8.encodeText t = .ok bytes ∧ text = t.shown := by
  cases input with
  | str t => cases encoded : Utf8.encodeText t <;> simp [inputText, encoded, eq_comm]
  | _ => simp [inputText]

theorem outputText_eq_ok {bytes : List UInt8} {text : Text} :
    outputText bytes = .ok text ↔ RawEscape.decode bytes = .ok text := by
  unfold outputText
  cases RawEscape.decode bytes <;> simp

theorem awaits_eq_ok {p : Platform} {input timeout : Json} : p.awaits input timeout = .ok () ↔
    (∃ text bytes, input = .str text ∧ Utf8.encodeText text = .ok bytes) ∧
      (p.checksTimeouts = true → Waitable timeout) := by
  rw [← waitFault?_eq_none]
  unfold Platform.awaits
  cases handed : inputText input with
  | error f =>
    refine iff_of_false nofun ?_
    rintro ⟨⟨text, bytes, given, encoded⟩, -⟩
    cases handed.symm.trans (inputText_eq_ok.mpr ⟨text, bytes, given, encoded, rfl⟩)
  | ok text =>
    obtain ⟨t, bytes, given, encoded, -⟩ := inputText_eq_ok.mp handed
    have takes : ∃ text bytes, input = .str text ∧ Utf8.encodeText text = .ok bytes :=
      ⟨t, bytes, given, encoded⟩
    cases p.waitFault? timeout with
    | none => exact iff_of_true rfl ⟨takes, rfl⟩
    | some f => exact iff_of_false nofun nofun

/-- A program gives a result exactly if it finishes. -/
theorem result_eq_ok {p : Platform} {l : Launch} {input timeout : Json} {stdout stderr : Text}
    {exit : Int} : l.result p input timeout = .ok (stdout, stderr, exit) ↔
      Finishes p l input timeout stdout stderr exit := by
  constructor
  · intro given
    cases l with
    | refused => cases given
    | timeout =>
      obtain ⟨_, -, given⟩ := bind_eq_ok given
      cases given
    | unwaited =>
      obtain ⟨_, -, given⟩ := bind_eq_ok given
      cases given
    | ended out err =>
      obtain ⟨_, awaits, given⟩ := bind_eq_ok given
      obtain ⟨first, read, given⟩ := bind_eq_ok given
      obtain ⟨second, read', given⟩ := bind_eq_ok given
      cases given
      obtain ⟨handed, waited⟩ := awaits_eq_ok.mp awaits
      exact ⟨handed, waited, out, err, rfl, outputText_eq_ok.mp read, outputText_eq_ok.mp read'⟩
  · rintro ⟨handed, waited, out, err, rfl, read, read'⟩
    simp [Launch.result, awaits_eq_ok.mpr ⟨handed, waited⟩, outputText_eq_ok.mpr read,
      outputText_eq_ok.mpr read', bind, Except.bind, pure, Except.pure]

theorem Finishes.unique {p : Platform} {l : Launch} {input timeout : Json}
    {out err out' err' : Text} {exit exit' : Int} (first : Finishes p l input timeout out err exit)
    (second : Finishes p l input timeout out' err' exit') :
    out = out' ∧ err = err' ∧ exit = exit' := by
  cases (result_eq_ok.mpr first).symm.trans (result_eq_ok.mpr second)
  exact ⟨rfl, rfl, rfl⟩

/-- How the next program behaves that is started. -/
def Run.nextLaunch (s : Run) : Launch := s.launches.head?.getD (.ended [] [] 0)

/-- How the program behaves that is started after the next one. -/
def Run.laterLaunch (s : Run) : Launch := (s.launches.drop 1).head?.getD (.ended [] [] 0)

/-- A program has been started, and nothing else has changed. -/
def Run.Launched (s u : Run) : Prop :=
  ∃ started, u = { s with launches := s.launches.drop 1, started }

theorem launch_leads (command : List String) (code : Option String)
    (input timeout : Json) (s : Run) :
    Leads (launch command code input timeout) s
      (fun f u => s.nextLaunch.result s.platform input timeout = .error f ∧ s.Launched u)
      (fun result u => Finishes s.platform s.nextLaunch input timeout result.1 result.2.1
        result.2.2 ∧
        s.Launched u) := by
  refine .look (.bind (.of_ok (EStateM.run_set _ _) ?_))
  rw [show s.launches.head?.getD (.ended [] [] 0) = s.nextLaunch from rfl]
  cases given : s.nextLaunch.result s.platform input timeout with
  | error f => exact .of_error rfl ⟨rfl, _, rfl⟩
  | ok result => exact .of_ok rfl ⟨result_eq_ok.mp given, _, rfl⟩

/-- The interpreter is started on a program, and it finishes. -/
def Interprets (p : Platform) (l : Launch) (program : Text) (stdin timeout : Json)
    (stdout stderr : Text) (exit : Int) : Prop :=
  (∃ bytes, Utf8.encodeText (program ++ "\nGROOT") = .ok bytes) ∧
    Finishes p l stdin timeout stdout stderr exit

/-- The program cannot be written to a file, or the interpreter gives no result. -/
inductive Uninterpreted (p : Platform) (l : Launch) (program : Text) (stdin timeout : Json) :
    Fault → Prop where
  | unwritable {f : Utf8.HalfFault}
      (failed : Utf8.encodeText (program ++ "\nGROOT") = .error f) :
      Uninterpreted p l program stdin timeout (.encoding f)
  | broken {f : Fault} (failed : l.result p stdin timeout = .error f) :
      Uninterpreted p l program stdin timeout f

theorem Uninterpreted.not_interprets {p : Platform} {l : Launch} {program : Text}
    {stdin timeout : Json} {f : Fault} (failed : Uninterpreted p l program stdin timeout f)
    {out err : Text} {exit : Int} : ¬ Interprets p l program stdin timeout out err exit := by
  rintro ⟨⟨bytes, written⟩, finished⟩
  cases failed with
  | unwritable failed => cases failed.symm.trans written
  | broken failed => cases failed.symm.trans (result_eq_ok.mpr finished)

theorem interpret_leads (interpreter : String) (program : Text) (stdin timeout : Json) (s : Run) :
    Leads (interpret interpreter program stdin timeout) s
      (fun f u => Uninterpreted s.platform s.nextLaunch program stdin timeout f ∧
        (u = s ∨ s.Launched u))
      (fun result u => Interprets s.platform s.nextLaunch program stdin timeout result.1 result.2.1
        result.2.2 ∧ s.Launched u) := by
  unfold interpret
  dsimp only
  cases encoded : Utf8.encodeText (program ++ "\nGROOT") with
  | error f => exact .of_error rfl ⟨.unwritable encoded, .inl rfl⟩
  | ok bytes =>
    refine (launch_leads _ _ _ _ s).imp ?_ ?_
    · rintro _ u ⟨failed, launched⟩
      exact ⟨.broken failed, .inr launched⟩
    · rintro _ u ⟨finished, launched⟩
      exact ⟨⟨⟨bytes, encoded⟩, finished⟩, launched⟩

/-! What is saved of a test. -/

variable {r : Runner} {fuel : Nat} {sectionName : String} {c : Case} {s u : Run} {report : Report}

/-- The log of a report can be written: its file has a name and a place, and its text has bytes. -/
def Writable (r : Runner) (sectionName : String) (s : Run) (report : Report) : Prop :=
  ∃ name files, (fileName report.test.name).run [] = .ok (some name) [] ∧
    (report.bytes s.now r.options.noDifference r.extensions).2 = none ∧
    s.files.write (r.logFile sectionName name)
      (report.bytes s.now r.options.noDifference r.extensions).1 =
      .ok files

theorem ofFile_leads {α β : Type} {e : Except Files.Fault α} {f : α → Work β}
    {failed : Fault → Run → Prop} {done : β → Run → Prop}
    (fails : ∀ fault, e = .error fault → failed (.file fault) s)
    (next : ∀ a, e = .ok a → Leads (f a) s failed done) : Leads (ofFile e >>= f) s failed done := by
  cases e with
  | error fault => exact .bind (.of_error rfl (fails fault rfl))
  | ok a => exact .bind (.of_ok rfl (next a rfl))

theorem loading_fileName_leads (name : Text) (s : Run) :
    Leads (loading fun _ => fileName name) s
      (fun _ u => (∀ found, (fileName name).run [] ≠ .ok found []) ∧ u = s)
      (fun found u => (fileName name).run [] = .ok found [] ∧ u = s) := by
  unfold fileName
  cases name.mapM Utf8.nameBytes? with
  | none => exact .of_error rfl ⟨nofun, rfl⟩
  | some bytes => exact .of_ok rfl ⟨rfl, rfl⟩

theorem save_leads (r : Runner) (sectionName : String) (report : Report) (s : Run) :
    Leads (r.save sectionName report) s
      (fun _ u => ¬ Writable r sectionName s report ∧ ∃ files, u = { s with files })
      (fun _ u => ∃ files, u = { s with
        files, reports := s.reports ++ [report],
        log := Log.endCase
          { s.log with success := report.success = some true, skipped := report.skipped } }) := by
  unfold Runner.save
  refine .bind ((loading_fileName_leads report.test.name s).imp ?_ ?_)
  · rintro _ u ⟨nameless, rfl⟩
    refine ⟨?_, u.files, rfl⟩
    rintro ⟨name, files, named, -⟩
    exact nameless _ named
  · rintro found u ⟨named, rfl⟩
    cases found with
    | none =>
      refine .of_error rfl ⟨?_, u.files, rfl⟩
      rintro ⟨name, files, named', -⟩
      cases named.symm.trans named'
    | some name =>
      dsimp only
      refine .look ?_
      cases written : report.bytes u.now r.options.noDifference r.extensions with
      | mk content fault =>
        dsimp only
        refine .look ?_
        refine ofFile_leads (fun f put => ⟨?_, u.files, rfl⟩) fun files _ => .change ?_
        · rintro ⟨name', files, named', -, put'⟩
          cases named.symm.trans named'
          rw [written, put] at put'
          cases put'
        · cases fault with
          | some f =>
            refine .bind (.of_error rfl ⟨?_, files, rfl⟩)
            rintro ⟨_, _, -, faultless, -⟩
            rw [written] at faultless
            cases faultless
          | none => exact .change (.of_ok rfl ⟨files, rfl⟩)

/-! The course of a test, by the stage that ends it. -/

/-- A report with what the compiler gave. -/
def Report.compiled (c : Case) (stdout stderr : Text) (exit : Int) : Report :=
  { test := c, compilerStdout := some stdout, compilerStderr := some stderr,
    compilerExit := some exit }

/-- A report with what the interpreter gave. -/
def Report.interpreted (report : Report) (stdout stderr : Text) (exit : Int) : Report :=
  { report with
    interpreterStdout := some stdout, interpreterStderr :=
      some stderr, interpreterExit := some exit,
    referencePrice := referencePrice? stderr }

/-- How the two programs of a test behave, and where they run. -/
structure Programs where
  platform : Platform
  compiler : Launch
  interpreter : Launch

def Run.programs (s : Run) : Programs := ⟨s.platform, s.nextLaunch, s.laterLaunch⟩

/-- The compiler takes the code of the test and finishes. -/
def Programs.Compiles (p : Programs) (c : Case) (stdout stderr : Text) (exit : Int) : Prop :=
  Finishes p.platform p.compiler c.code c.timeout stdout stderr exit

/-- The interpreter takes the program and the input of the test and finishes. -/
def Programs.Runs (p : Programs) (c : Case) (program stdout stderr : Text) (exit : Int) : Prop :=
  Interprets p.platform p.interpreter program c.stdin c.timeout stdout stderr exit

/-- The logs and the reports of a test that comes to be interpreted, from a log and a report on. -/
inductive Interpretation (fuel : Nat) (c : Case) (p : Programs) (program : Text) (l : Log)
    (start : Report) : Log → Report → Prop where
  | unfinished {f : Fault}
      (failed : Uninterpreted p.platform p.interpreter program c.stdin c.timeout f) :
      Interpretation fuel c p program l start
        (l.failCase (Runner.launchFailure "INTERPRETER" f)) { start with success := some false }
  | otherExit {out err : Text} {exit : Int} (ran : p.Runs c program out err exit)
      (other : exit ≠ c.interpreterExit) :
      Interpretation fuel c p program l start
        (l.failCase (Runner.exitFailure "INTERPRETER" c.interpreterExit exit))
        { start.interpreted out err exit with success := some false }
  | stopped {out err : Text} {exit : Int} (ran : p.Runs c program out err exit)
      (same : exit = c.interpreterExit) (nonzero : exit ≠ 0) :
      Interpretation fuel c p program l start l
        { start.interpreted out err exit with success := some true }
  | otherOutput {out err : Text} (ran : p.Runs c program out err 0) (same : 0 = c.interpreterExit)
      (other : c.stdout ≠ .str out) :
      Interpretation fuel c p program l start (l.passStage.failCase "STDOUT")
        { start.interpreted out err 0 with success := some false }
  | unpriced {out err : Text} (ran : p.Runs c program out err 0) (same : 0 = c.interpreterExit)
      (output : c.stdout = .str out) {message : Text}
      (refused : priceOf fuel program c.stdin = .error (.ok message)) :
      Interpretation fuel c p program l start
        (l.passStage.passStage.line [.warning] (" (fail: " ++ message ++ ")"))
        { start.interpreted out err 0 with success := some true }
  | priced {out err : Text} (ran : p.Runs c program out err 0) (same : 0 = c.interpreterExit)
      (output : c.stdout = .str out) {m : Machine}
      (computed : priceOf fuel program c.stdin = .ok m) :
      Interpretation fuel c p program l start
        (l.passStage.passStage.price m.instructionPrice m.operandPrice
          (((referencePrice? err).map Json.int).getD .null))
        { start.interpreted out err 0 with machine := some m, success := some true }

/-- The test is not skipped, the compiler has done what is expected, and the interpreter is
asked. -/
structure Compiled (r : Runner) (c : Case) (p : Programs) (program stderr : Text) : Prop where
  active : missing r c = []
  ran : p.Compiles c program stderr 0
  same : 0 = c.compilerExit
  asked : r.options.noInterpreter = false

/-- What is logged of a test that is skipped. -/
def skipText (r : Runner) (c : Case) : Text :=
  " skipping, required extension(s) " ++
    List.intercalate ", " ((extensionNames (missing r c)).toOption.getD []) ++ " is not activated."

/-- The logs and the reports of a test, from a log on. -/
inductive Course (r : Runner) (fuel : Nat) (c : Case) (p : Programs) (l : Log) :
    Log → Report → Prop where
  | skipped (inactive : missing r c ≠ []) :
      Course r fuel c p l (l.piece [.green] (skipText r c)) { test := c, skipped := true }
  | unfinished (active : missing r c = []) {f : Fault}
      (failed : p.compiler.result p.platform c.code c.timeout = .error f) :
      Course r fuel c p l (l.failCase (Runner.launchFailure "COMPILER" f))
        { test := c, success := some false }
  | otherExit (active : missing r c = []) {out err : Text} {exit : Int}
      (ran : p.Compiles c out err exit) (other : exit ≠ c.compilerExit) :
      Course r fuel c p l (l.failCase (Runner.exitFailure "COMPILER" c.compilerExit exit))
        { Report.compiled c out err exit with success := some false }
  | stopped (active : missing r c = []) {out err : Text} {exit : Int}
      (ran : p.Compiles c out err exit) (same : exit = c.compilerExit)
      (enough : exit ≠ 0 ∨ r.options.noInterpreter = true) :
      Course r fuel c p l l.passStage { Report.compiled c out err exit with success := some true }
  | interpreted {program err : Text} (compiled : Compiled r c p program err) {h : Log}
      {report : Report}
      (rest : Interpretation fuel c p program l.passStage
        (Report.compiled c program err 0) h report) :
      Course r fuel c p l h report

/-- What is uploaded of a test: its price, if it has been computed. -/
def Report.price? (report : Report) : Option Price :=
  report.machine.map fun m =>
    ⟨Files.baseName report.test.directory, .str report.test.name, .int m.operandPrice,
      .int m.instructionPrice⟩

/-- A test of the run `s` is under way in `u`. -/
structure Underway (s u : Run) (collected : List Price) : Prop where
  log : s.log.Keeps u.log
  platform : u.platform = s.platform
  files : u.files = s.files
  now : u.now = s.now
  uploader : u.uploader = { s.uploader with prices := s.uploader.prices ++ collected }
  requests : u.requests = s.requests
  reports : u.reports = s.reports

/-- The run `s` has come to `u` by a test of which the report is saved; the log `h` was held
back. -/
structure Judged (s u : Run) (h : Log) (report : Report) : Prop where
  reports : u.reports = s.reports ++ [report]
  uploader : u.uploader = { s.uploader with prices := s.uploader.prices ++ report.price?.toList }
  requests : u.requests = s.requests
  keeps : s.log.Keeps h
  log : u.log = (h.marked (report.success = some true) report.skipped).endCase

/-- Why a test is not carried out to its end. -/
inductive Obstacle (r : Runner) (fuel : Nat) (sectionName : String) (c : Case) (s : Run) :
    Prop where
  | info (unreadable : ∀ info, shownInfo c.info ≠ .ok info)
  | log {l h : Log} (report : Report) (course : Course r fuel c s.programs l h report)
      (unwritable : ¬ Writable r sectionName s report)
  | price {program err : Text} (ran : s.programs.Compiles c program err 0) {f : Value.Fault}
      (wordless : priceOf fuel program c.stdin = .error (.error f))

/-- The test is not carried out to its end, and nothing is saved of it. -/
structure Hindered (r : Runner) (fuel : Nat) (sectionName : String) (c : Case) (s u : Run) :
    Prop where
  obstacle : Obstacle r fuel sectionName c s
  reports : u.reports = s.reports
  requests : u.requests = s.requests

theorem Underway.logging {collected : List Price} (way : Underway s u collected) {log : Log}
    (keeps : s.log.Keeps log) : Underway s { u with log } collected :=
  { way with log := keeps }

theorem Underway.launched {collected : List Price} (way : Underway s u collected) {v : Run}
    (launched : u.Launched v) : Underway s v collected ∧ v.log = u.log := by
  obtain ⟨started, rfl⟩ := launched
  exact ⟨{ way with }, rfl⟩

theorem Writable.of_underway {collected : List Price} (way : Underway s u collected)
    (writable : Writable r sectionName s report) : Writable r sectionName u report := by
  unfold Writable at writable ⊢
  rwa [way.now, way.files]

/-- From the state `u` the computation carries the test to its end, unless it is hindered; at its
beginning the log was `l`. -/
abbrev Concludes (r : Runner) (fuel : Nat) (sectionName : String) (c : Case) (s : Run) (l : Log)
    (x : Work Unit) (u : Run) : Prop :=
  Leads x u (fun _ v => Hindered r fuel sectionName c s v)
    (fun _ v => ∃ h report, Course r fuel c s.programs l h report ∧ Judged s v h report)

theorem logging_leads {α : Type} {g : Log → Log} {f : Unit → Work α} {failed : Fault → Run → Prop}
    {done : α → Run → Prop} (next : Leads (f ()) { s with log := g s.log } failed done) :
    Leads (logging g >>= f) s failed done :=
  .bind (.of_ok rfl next)

theorem ofReport_leads {α β : Type} {e : Except ReportFault α} {f : α → Work β}
    {failed : Fault → Run → Prop} {done : β → Run → Prop}
    (fails : ∀ fault, e = .error fault → failed (.report fault) s)
    (next : ∀ a, e = .ok a → Leads (f a) s failed done) :
    Leads (ofReport e >>= f) s failed done := by
  cases e with
  | error fault => exact .bind (.of_error rfl (fails fault rfl))
  | ok a => exact .bind (.of_ok rfl (next a rfl))

/-- Once its course is known, the report of a test is saved. -/
theorem save_concludes {l : Log} (way : Underway s u report.price?.toList)
    (course : Course r fuel c s.programs l u.log report) :
    Concludes r fuel sectionName c s l (r.save sectionName report) u := by
  refine (save_leads r sectionName report u).imp ?_ ?_
  · rintro _ v ⟨unwritable, files, rfl⟩
    exact ⟨.log report course fun writable => unwritable (writable.of_underway way), way.reports,
      way.requests⟩
  · rintro _ v ⟨files, rfl⟩
    exact ⟨u.log, report, course, by simp [way.reports], way.uploader, way.requests, way.log, rfl⟩

theorem failCase_concludes {l : Log} (way : Underway s u report.price?.toList) (why : Text)
    (course : Course r fuel c s.programs l (u.log.failCase why)
      { report with success := some false }) :
    Concludes r fuel sectionName c s l (r.failCase sectionName report why) u :=
  logging_leads (save_concludes (way.logging (way.log.failCase why)) course)

section Stages

variable {program err : Text} {l : Log}

theorem priceCase_concludes (way : Underway s u []) (compiled : Compiled r c s.programs program err)
    {out err' : Text} (ran : s.programs.Runs c program out err' 0) (same : 0 = c.interpreterExit)
    (output : c.stdout = .str out) (logged : u.log = l.passStage.passStage.passStage) :
    Concludes r fuel sectionName c s l (r.priceCase fuel sectionName c
      ((Report.compiled c program err 0).interpreted out err' 0) program) u := by
  unfold Runner.priceCase
  cases priced : priceOf fuel program c.stdin with
  | error e =>
    cases e with
    | error f => exact .of_error rfl ⟨.price compiled.ran priced, way.reports, way.requests⟩
    | ok message =>
      have course := Course.interpreted (l := l) compiled (.unpriced ran same output priced)
      rw [← logged] at course
      exact logging_leads (save_concludes (way.logging (way.log.line _ _)) course)
  | ok m =>
    have course := Course.interpreted (l := l) compiled (.priced ran same output priced)
    rw [← logged] at course
    refine logging_leads (.bind (.of_ok rfl (save_concludes ?_ course)))
    have kept := way.logging (way.log.price m.instructionPrice m.operandPrice
      (((referencePrice? err').map Json.int).getD .null))
    refine { kept with uploader := ?_ }
    simp [way.uploader, Report.price?, Report.interpreted, Report.compiled]

theorem interpretCase_concludes (way : Underway s u [])
    (compiled : Compiled r c s.programs program err) (next : u.nextLaunch = s.laterLaunch)
    (logged : u.log = l.passStage) :
    Concludes r fuel sectionName c s l
      (r.interpretCase fuel sectionName c (Report.compiled c program err 0) program) u := by
  unfold Runner.interpretCase
  refine .bind (.tryCatch (.bind ((interpret_leads _ program c.stdin c.timeout u).imp ?_ ?_)))
  · rintro f v ⟨failed, same⟩
    rw [next, way.platform] at failed
    obtain ⟨way, kept⟩ : Underway s v [] ∧ v.log = u.log := by
      rcases same with rfl | launched
      · exact ⟨way, rfl⟩
      · exact way.launched launched
    refine .of_ok rfl (failCase_concludes way _ (.interpreted compiled ?_))
    rw [kept, logged]
    exact .unfinished failed
  · rintro ⟨out, err', exit⟩ v ⟨ran, launched⟩
    rw [next, way.platform] at ran
    obtain ⟨way, kept⟩ := way.launched launched
    rw [logged] at kept
    refine .of_ok rfl ?_
    dsimp only
    by_cases other : exit ≠ c.interpreterExit
    · rw [if_pos other]
      refine failCase_concludes way _ (.interpreted compiled ?_)
      rw [kept]
      exact .otherExit ran other
    · rw [if_neg other]
      have same := not_not.mp other
      by_cases nonzero : exit ≠ 0
      · rw [if_pos nonzero]
        refine save_concludes way (.interpreted compiled ?_)
        rw [kept]
        exact .stopped ran same nonzero
      · rw [if_neg nonzero]
        cases not_not.mp nonzero
        refine logging_leads ?_
        have way := way.logging way.log.passStage
        -- an expected output that is no text differs from every output
        have differs (other : c.stdout ≠ .str out) : Course r fuel c s.programs l
            (v.log.passStage.failCase "STDOUT")
            { (Report.compiled c program err 0).interpreted out err' 0 with
              success := some false } := by
          rw [kept]
          exact .interpreted compiled (.otherOutput ran same other)
        cases output : c.stdout with
        | str t =>
          by_cases equal : t = out
          · subst equal
            dsimp only
            rw [if_neg (by simp)]
            refine logging_leads (priceCase_concludes (way.logging way.log.passStage) compiled ran
              same output ?_)
            rw [kept]
          · dsimp only
            rw [if_pos (by simpa using equal)]
            exact failCase_concludes way _ (differs (by simpa [output] using equal))
        | null | bool | int | float | list | dict =>
          exact failCase_concludes way _ (differs (by simp [output]))

theorem compileCase_concludes (way : Underway s u []) (active : missing r c = [])
    (next : u.nextLaunch = s.nextLaunch) (later : u.laterLaunch = s.laterLaunch)
    (logged : u.log = l) :
    Concludes r fuel sectionName c s l (r.compileCase fuel sectionName c) u := by
  unfold Runner.compileCase
  refine .bind (.tryCatch (.bind ((launch_leads _ none c.code c.timeout u).imp ?_ ?_)))
  · rintro f v ⟨failed, launched⟩
    rw [next, way.platform] at failed
    obtain ⟨way, kept⟩ := way.launched launched
    refine .of_ok rfl (failCase_concludes way _ ?_)
    rw [kept, logged]
    exact .unfinished active failed
  · rintro ⟨out, err, exit⟩ v ⟨ran, launched⟩
    rw [next, way.platform] at ran
    have later : v.nextLaunch = s.laterLaunch := by
      obtain ⟨started, rfl⟩ := launched
      exact later
    obtain ⟨way, kept⟩ := way.launched launched
    rw [logged] at kept
    refine .of_ok rfl ?_
    dsimp only
    by_cases other : exit ≠ c.compilerExit
    · rw [if_pos other]
      refine failCase_concludes way _ ?_
      rw [kept]
      exact .otherExit active ran other
    · rw [if_neg other]
      have same := not_not.mp other
      refine logging_leads ?_
      have way := way.logging way.log.passStage
      by_cases enough : exit ≠ 0 ∨ r.options.noInterpreter = true
      · rw [if_pos (by simpa using enough)]
        refine save_concludes way ?_
        dsimp only
        rw [kept]
        exact .stopped active ran same enough
      · rw [if_neg (by simpa using enough)]
        obtain ⟨zero, asked⟩ := not_or.mp enough
        cases not_not.mp zero
        exact interpretCase_concludes way ⟨active, ran, same, by simpa using asked⟩ later
          (congrArg Log.passStage kept)

theorem texts_of_extensionNames {vs : List Value} {names : List Text}
    (read : extensionNames vs = .ok names) :
    ∀ v ∈ vs, ∃ t, v = .str t := by
  unfold extensionNames at read
  generalize 0 = start at read
  induction vs generalizing names start with
  | nil => exact List.forall_mem_nil _
  | cons v vs ih =>
    rw [List.zipIdx_cons, List.mapM_cons] at read
    obtain ⟨name, first, read⟩ := bind_eq_ok read
    obtain ⟨others, rest, -⟩ := bind_eq_ok read
    rw [List.forall_mem_cons]
    refine ⟨?_, ih (start + 1) rest⟩
    cases v with
    | str t => exact ⟨t, rfl⟩
    | _ => cases first

theorem extensionNames_of_texts {vs : List Value} (texts : ∀ v ∈ vs, ∃ t, v = .str t) :
    ∃ names, extensionNames vs = .ok names := by
  unfold extensionNames
  generalize 0 = start
  induction vs generalizing start with
  | nil => exact ⟨[], rfl⟩
  | cons v vs ih =>
    rw [List.forall_mem_cons] at texts
    obtain ⟨⟨t, rfl⟩, texts⟩ := texts
    obtain ⟨names, rest⟩ := ih texts (start + 1)
    refine ⟨t :: names, ?_⟩
    rw [List.zipIdx_cons, List.mapM_cons, rest]
    rfl

/-- What can be logged of a test has extensions with names. -/
theorem Writable.extensions (writable : Writable r sectionName s report) :
    ∀ v ∈ report.test.extensions, ∃ t, v = .str t := by
  obtain ⟨name, files, -, faultless, -⟩ := writable
  obtain ⟨pieces, made, -⟩ := bytes_ok (Prod.ext rfl faultless)
  unfold Report.pieces at made
  split at made
  · cases made
  · rename_i head _
    obtain ⟨required, _, _, named, -⟩ := Report.head_ok head
    exact texts_of_extensionNames named
  · cases made

/-- A test whose extensions have no names cannot be logged either. -/
theorem skipCase_concludes (way : Underway s u []) (inactive : missing r c ≠ [])
    (logged : u.log = l) :
    Concludes r fuel sectionName c s l (r.skipCase sectionName c (missing r c)) u := by
  subst logged
  have course : Course r fuel c s.programs u.log _ { test := c, skipped := true } :=
    .skipped inactive
  refine ofReport_leads (fun f nameless => ⟨.log _ course ?_, way.reports, way.requests⟩)
    fun names named => ?_
  · intro writable
    have texts : ∀ v ∈ missing r c, ∃ t, v = .str t := fun v member =>
      writable.extensions v (List.mem_of_mem_filter member)
    obtain ⟨names, named⟩ := extensionNames_of_texts texts
    rw [named] at nameless
    cases nameless
  · refine logging_leads (save_concludes (way.logging (way.log.piece _ _)) ?_)
    simp only [skipText, named, Except.toOption, Option.getD_some] at course
    exact course

theorem runCase_concludes (r : Runner) (fuel : Nat) (sectionName : String) (c : Case) (s : Run) :
    Leads (r.runCase fuel sectionName c) s (fun _ u => Hindered r fuel sectionName c s u)
      (fun _ u => ∃ info h report, shownInfo c.info = .ok info ∧
        Course r fuel c s.programs (s.log.beginCase (Text.padded 3 c.name) info) h report ∧
        Judged s u h report) := by
  refine ofReport_leads (fun f unreadable => ⟨.info ?_, rfl, rfl⟩) fun info shown =>
    logging_leads ?_
  · simp [unreadable]
  · have way : Underway s { s with log := s.log.beginCase (Text.padded 3 c.name) info } [] :=
      ⟨Log.keeps_beginCase _ _ _, rfl, rfl, rfl, by simp, rfl, rfl⟩
    have told {x : Work Unit} {u : Run} (concludes : Concludes r fuel sectionName c s
        (s.log.beginCase (Text.padded 3 c.name) info) x u) : Leads x u
        (fun _ v => Hindered r fuel sectionName c s v)
        (fun _ v => ∃ info h report, shownInfo c.info = .ok info ∧
          Course r fuel c s.programs (s.log.beginCase (Text.padded 3 c.name) info) h report ∧
          Judged s v h report) :=
      concludes.imp (fun _ _ hindered => hindered) fun _ _ ⟨h, report, course, judged⟩ =>
        ⟨info, h, report, shown, course, judged⟩
    dsimp only
    by_cases active : missing r c = []
    · rw [if_neg (by simp [active])]
      exact told (compileCase_concludes way active rfl rfl rfl)
    · rw [if_pos (by simpa using active)]
      exact told (skipCase_concludes way active rfl)

end Stages

/-! The rule that all courses follow. -/

/-- What is expected of the interpreter: its exit code, and the output if the code is zero. -/
def InterpreterPasses (c : Case) (p : Programs) (program : Text) : Prop :=
  ∃ out err, p.Runs c program out err c.interpreterExit ∧
    (c.interpreterExit ≠ 0 ∨ c.stdout = .str out)

/-- What is expected of a test: the compiler's exit code, and the interpreter's part if it is
asked. -/
def Passes (r : Runner) (c : Case) (p : Programs) : Prop :=
  ∃ program err, p.Compiles c program err c.compilerExit ∧
    (c.compilerExit ≠ 0 ∨ r.options.noInterpreter = true ∨ InterpreterPasses c p program)

/-- The report says of a test that was not skipped whether the condition holds. -/
def Report.Tells (report : Report) (passes : Prop) : Prop :=
  report.skipped = false ∧ (report.success = some true ∧ passes ∨
    report.success = some false ∧ ¬ passes)

section Rule

variable {p : Programs} {l h : Log} {program : Text} {start : Report}

theorem Interpretation.tells (rest : Interpretation fuel c p program l start h report)
    (ran : start.skipped = false) : report.Tells (InterpreterPasses c p program) := by
  cases rest with
  | unfinished failed =>
    refine ⟨ran, .inr ⟨rfl, ?_⟩⟩
    rintro ⟨out, err, finished, -⟩
    exact failed.not_interprets finished
  | otherExit done other =>
    refine ⟨ran, .inr ⟨rfl, ?_⟩⟩
    rintro ⟨out, err, finished, -⟩
    exact other (done.2.unique finished.2).2.2
  | stopped done same nonzero => exact ⟨ran, .inl ⟨rfl, _, _, same ▸ done, .inl (same ▸ nonzero)⟩⟩
  | otherOutput done same other =>
    refine ⟨ran, .inr ⟨rfl, ?_⟩⟩
    rintro ⟨out, err, finished, nonzero | output⟩
    · exact nonzero same.symm
    · exact other ((done.2.unique finished.2).1 ▸ output)
  | unpriced done same output => exact ⟨ran, .inl ⟨rfl, _, _, same ▸ done, .inr output⟩⟩
  | priced done same output => exact ⟨ran, .inl ⟨rfl, _, _, same ▸ done, .inr output⟩⟩

theorem Interpretation.test (rest : Interpretation fuel c p program l start h report) :
    report.test = start.test := by
  cases rest <;> rfl

theorem Compiled.passes_iff {err : Text} (compiled : Compiled r c p program err) :
    Passes r c p ↔ InterpreterPasses c p program := by
  constructor
  · rintro ⟨program', err', finished, nonzero | alone | passes⟩
    · exact absurd compiled.same.symm nonzero
    · exact absurd alone (by simp [compiled.asked])
    · rwa [(Finishes.unique compiled.ran finished).1]
  · intro passes
    exact ⟨program, err, compiled.same ▸ compiled.ran, .inr (.inr passes)⟩

/-- A test is skipped if an extension is missing; otherwise the report tells whether it passes. -/
theorem Course.tells (course : Course r fuel c p l h report) :
    report.test = c ∧ (missing r c ≠ [] ∧ report.success = none ∧ report.skipped = true ∨
      missing r c = [] ∧ report.Tells (Passes r c p)) := by
  cases course with
  | skipped inactive => exact ⟨rfl, .inl ⟨inactive, rfl, rfl⟩⟩
  | unfinished active failed =>
    refine ⟨rfl, .inr ⟨active, rfl, .inr ⟨rfl, ?_⟩⟩⟩
    rintro ⟨program, err, finished, -⟩
    cases failed.symm.trans (result_eq_ok.mpr finished)
  | otherExit active done other =>
    refine ⟨rfl, .inr ⟨active, rfl, .inr ⟨rfl, ?_⟩⟩⟩
    rintro ⟨program, err, finished, -⟩
    exact other (Finishes.unique done finished).2.2
  | stopped active done same enough =>
    refine ⟨rfl, .inr ⟨active, rfl, .inl ⟨rfl, _, _, same ▸ done, ?_⟩⟩⟩
    rcases enough with nonzero | alone
    · exact .inl (same ▸ nonzero)
    · exact .inr (.inl alone)
  | interpreted compiled rest =>
    refine ⟨rest.test, .inr ⟨compiled.active, ?_⟩⟩
    rw [compiled.passes_iff]
    exact rest.tells rfl

end Rule

theorem mem_missing {v : Value} :
    v ∈ missing r c ↔ v ∈ c.extensions ∧ ∀ e ∈ r.extensions, v ≠ .str (Text.ofString e) := by
  unfold missing
  rw [List.mem_filter]
  refine and_congr_right fun _ => ?_
  cases v with
  | str t => simp [@eq_comm _ t]
  | _ => simp

theorem shownInfo_ok {info : Json} (text : info.holds = false ∨ ∃ t, info = .str t) :
    ∃ shown, shownInfo info = .ok shown := by
  rcases text with empty | ⟨t, rfl⟩
  · exact ⟨[], by simp [shownInfo, empty, pure, Except.pure]⟩
  · cases holds : (Json.str t).holds
    · exact ⟨[], by simp [shownInfo, holds, pure, Except.pure]⟩
    · exact ⟨_, by simp [shownInfo, holds, textFor, pure, Except.pure, bind, Except.bind]; rfl⟩

/-- The own interpreter refuses the program, or its run ends within the fuel; if it ends with a
failure, there is a message about it. -/
def Settles (fuel : Nat) (program : Text) (stdin : Json) : Prop :=
  ∀ input p, stdin = .str input → Program.load program.shown = .ok p →
    (∃ m, Machine.run p fuel (p.start input.shown none) = (.finished, m)) ∨
      ∃ f m message, Machine.run p fuel (p.start input.shown none) = (.failed f, m) ∧
        f.message = .ok message

theorem Settles.worded {program : Text} {stdin : Json} (settles : Settles fuel program stdin)
    (f : Value.Fault) :
    priceOf fuel program stdin ≠ .error (.error f) := by
  intro wordless
  unfold priceOf at wordless
  split at wordless
  · rename_i input
    split at wordless
    · cases wordless
    · rename_i p loaded
      rcases settles input p rfl loaded with ⟨m, ran⟩ | ⟨f', m, message, ran, worded⟩
      · rw [ran] at wordless
        cases wordless
      · rw [ran] at wordless
        simp [worded] at wordless
  · cases wordless

/-- A test whose info is a text, whose program the own interpreter settles and whose log can be
written is judged by the rule: one report is saved, it says skipped if an extension is missing and
otherwise whether the test passes. What was logged of the test was held back, and is shown if the
log is verbose or the test failed. -/
theorem test_judged_by_rule (r : Runner) (fuel : Nat) (sectionName : String) (c : Case) (s : Run)
    (info : c.info.holds = false ∨ ∃ text, c.info = .str text)
    (settles : ∀ program err, s.programs.Compiles c program err 0 → Settles fuel program c.stdin)
    (writable : ∀ l h report, Course r fuel c s.programs l h report →
      Writable r sectionName s report) :
    ∃ info held report s', shownInfo c.info = .ok info ∧
      Course r fuel c s.programs (s.log.beginCase (Text.padded 3 c.name) info) held report ∧
      (r.runCase fuel sectionName c).run s = .ok () s' ∧
      s'.reports = s.reports ++ [report] ∧ report.test = c ∧
      (report.success = none ↔ ∃ v ∈ c.extensions, ∀ e ∈ r.extensions, v ≠ .str (Text.ofString e)) ∧
      (report.success ≠ none → (report.success = some true ↔ Passes r c s.programs)) ∧
      s'.log.held = none ∧ held.buffer ≠ [] ∧
      s'.log.shown = if s.log.verbose = true ∨ report.success = some false
        then held.buffer.reverse ++ s.log.shown else s.log.shown := by
  obtain ⟨_, s', ran, shown, held, report, readable, course, judged⟩ :=
    (runCase_concludes r fuel sectionName c s).succeeds (by
      rintro _ _ ⟨obstacle, -, -⟩
      cases obstacle with
      | info unreadable =>
        obtain ⟨shown, readable⟩ := shownInfo_ok info
        exact unreadable shown readable
      | log report course unwritable => exact unwritable (writable _ _ report course)
      | price finished wordless => exact (settles _ _ finished).worded _ wordless)
  obtain ⟨test, told⟩ := course.tells
  have skipped : (∃ v ∈ c.extensions, ∀ e ∈ r.extensions, v ≠ .str (Text.ofString e)) ↔
      missing r c ≠ [] := by
    simp only [← mem_missing]
    exact ⟨fun ⟨_, member⟩ => List.ne_nil_of_mem member, List.exists_mem_of_ne_nil _⟩
  obtain ⟨closed, shows⟩ := judged.keeps.endCase (decide (report.success = some true))
    report.skipped
  rw [← judged.log] at closed shows
  refine ⟨shown, held, report, s', readable, course, ran, judged.reports, test, ?_, ?_, closed,
    judged.keeps.buffer_ne_nil, shows.trans ?_⟩
  · rw [skipped]
    rcases told with ⟨inactive, none, -⟩ | ⟨active, -, ⟨value, -⟩ | ⟨value, -⟩⟩ <;> simp [*]
  · rcases told with ⟨-, none, -⟩ | ⟨-, -, ⟨value, passes⟩ | ⟨value, fails⟩⟩ <;> simp [*]
  · rcases told with ⟨-, none, skip⟩ | ⟨-, skip, ⟨value, -⟩ | ⟨value, -⟩⟩ <;> simp [*]

/-- A test that is met: the program writes the digit that is expected. -/
def digitTest : Case where
  name := "three"
  code := .str "print 3"
  stdin := .str ""
  stdout := .str "3"
  compilerExit := 0
  interpreterExit := 0
  info := .str "Writes a digit."
  directory := "tests/basic"
  extensions := [.str "BASE"]
  timeout := .int 1

def digitProgram : String := ".IFJcode17\nWRITE string@3\n"

def digitRun : Run :=
  { smallRun with launches := [.ended (Utf8.encode digitProgram) [] 0,
      .ended (Utf8.encode "3") (Utf8.encode "price (2)") 0] }

theorem digitTest_compiled : digitRun.programs.Compiles digitTest digitProgram "" 0 where
  handed := ⟨_, Utf8.encode "print 3", rfl, eq_ok_of_toOption (by decide +kernel)⟩
  waited _ := ⟨by decide, by decide +kernel⟩
  ended := ⟨Utf8.encode digitProgram, [], rfl, eq_ok_of_toOption (by decide +kernel),
    eq_ok_of_toOption (by decide +kernel)⟩

theorem digitTest_interpreted :
    digitRun.programs.Runs digitTest digitProgram "3" "price (2)" 0 where
  left := ⟨Utf8.encode (digitProgram ++ "\nGROOT"), eq_ok_of_toOption (by decide +kernel)⟩
  right := {
    handed := ⟨_, [], rfl, eq_ok_of_toOption (by decide +kernel)⟩
    waited _ := ⟨by decide, by decide +kernel⟩
    ended := ⟨Utf8.encode "3", Utf8.encode "price (2)", rfl, eq_ok_of_toOption (by decide +kernel),
      eq_ok_of_toOption (by decide +kernel)⟩ }

/-- The report that is saved: the machine is the one on which the program ran. -/
def digitReport : Report :=
  { (Report.compiled digitTest digitProgram "" 0).interpreted "3" "price (2)" 0 with
    machine := (priceOf 5 digitProgram digitTest.stdin).toOption, success := some true }

theorem digitReport_writable : Writable smallRunner "basic" digitRun digitReport := by
  have named : (fileName digitReport.test.name).run [] = .ok (some "three") [] := by
    have bytes : digitReport.test.name.mapM Utf8.nameBytes? =
        some [[116], [104], [114], [101], [101]] := by
      decide +kernel
    have decoded : (Utf8.decode [116, 104, 114, 101, 101]).toOption =
        some "three" := by decide +kernel
    rw [fileName, bytes]
    exact congrArg (EStateM.Result.ok · []) decoded
  obtain ⟨files, written⟩ : ∃ files, (digitRun.files.write (smallRunner.logFile "basic" "three")
      (digitReport.bytes digitRun.now false smallRunner.extensions).1).toOption = some files :=
    Option.isSome_iff_exists.mp (by decide +kernel)
  exact ⟨"three", files, named, by decide +kernel, eq_ok_of_toOption written⟩

theorem digitTest_course {l h : Log} (report : Report)
    (course : Course smallRunner 5 digitTest digitRun.programs l h report) :
    report = digitReport := by
  cases course with
  | skipped inactive => exact absurd rfl inactive
  | unfinished _ failed => cases failed.symm.trans (result_eq_ok.mpr digitTest_compiled)
  | otherExit _ ran other => exact absurd (Finishes.unique ran digitTest_compiled).2.2 other
  | stopped _ ran _ enough => simp [(Finishes.unique ran digitTest_compiled).2.2,
      smallRunner] at enough
  | interpreted compiled rest =>
    obtain ⟨rfl, rfl, -⟩ := Finishes.unique digitTest_compiled compiled.ran
    cases rest with
    | unfinished failed => exact absurd digitTest_interpreted failed.not_interprets
    | otherExit ran other => exact absurd (ran.2.unique digitTest_interpreted.2).2.2 other
    | stopped ran _ nonzero => exact absurd (ran.2.unique digitTest_interpreted.2).2.2 nonzero
    | otherOutput ran _ other =>
      obtain ⟨rfl, -⟩ := digitTest_interpreted.2.unique ran.2
      exact absurd rfl other
    | unpriced _ _ _ refused =>
      have priced : (priceOf 5 digitProgram digitTest.stdin).toOption.isSome =
          true := by decide +kernel
      rw [refused] at priced
      cases priced
    | priced ran _ _ computed =>
      obtain ⟨rfl, rfl, -⟩ := digitTest_interpreted.2.unique ran.2
      simp only [digitReport, computed, Except.toOption]

theorem digitTest_settles (program err : Text)
    (finished : digitRun.programs.Compiles digitTest program err 0) :
    Settles 5 program digitTest.stdin := by
  obtain ⟨rfl, -⟩ := Finishes.unique digitTest_compiled finished
  rintro _ p ⟨⟩ loaded
  have ended : (Program.load digitProgram).toOption.map (fun p =>
      (Machine.run p 5 (p.start "" none)).1) =
      some .finished := by decide +kernel
  rw [Text.shown_ofString] at loaded
  rw [loaded] at ended
  exact .inl ⟨_, Prod.ext (Option.some.inj ended) rfl⟩

theorem digitTest_judged :
    Passes smallRunner digitTest digitRun.programs ∧
      ∃ report s', (smallRunner.runCase 5 "basic" digitTest).run digitRun = .ok () s' ∧
        s'.reports = [report] ∧ report.test = digitTest ∧ report.success = some true ∧
        s'.log.held = none ∧ s'.log.shown = [] := by
  have passes : Passes smallRunner digitTest digitRun.programs :=
    ⟨digitProgram, "", digitTest_compiled,
      .inr (.inr ⟨"3", "price (2)", digitTest_interpreted, .inr rfl⟩)⟩
  obtain ⟨_, _, report, s', -, -, ran, saved, test, skipped, verdict, held, -, shown⟩ :=
    test_judged_by_rule smallRunner 5 "basic" digitTest digitRun (.inr ⟨_, rfl⟩) digitTest_settles
      fun _ _ report course => digitTest_course report course ▸ digitReport_writable
  have active : report.success ≠ none := by
    rw [Ne, skipped]
    simp [digitTest, smallRunner]
  have success := (verdict active).mpr passes
  refine ⟨passes, report, s', ran, saved, test, success, held, shown.trans (if_neg ?_)⟩
  simp [success, digitRun, smallRun]

/-- What is said of the tests when one is run among programs that behave as given, or the fault that
ends the run. -/
def verdicts (fuel : Nat) (launches : List Launch) (c : Case) : Except Fault (List (Option Bool)) :=
  match (smallRunner.runCase fuel "basic" c).run { smallRun with launches } with
  | .ok _ s => .ok (s.reports.map (·.success))
  | .error f _ => .error f

/-- A program that fails with an index of more digits than are written. -/
def longIndexProgram : String :=
  ".IFJcode17\nDEFVAR GF@a\nFLOAT2INT GF@a float@1e308\nMUL GF@a GF@a GF@a\nMUL GF@a GF@a GF@a\n" ++
    "MUL GF@a GF@a GF@a\nMUL GF@a GF@a GF@a\nGETCHAR GF@a string@ GF@a\n"

/-- A test is not judged by the exit codes and the output alone if an output cannot be read, and not
at all if its info is no text or the price fails without a message. -/
theorem test_not_judged_by_rule :
    verdicts 5 [.ended (Utf8.encode digitProgram) [] 0,
      .ended (Utf8.encode "3") (Utf8.encode "\\u") 0]
      digitTest = .ok [some false] ∧
    verdicts 5 [.ended (Utf8.encode digitProgram) [] 0, .ended (Utf8.encode "3") [] 0]
      { digitTest with info := .int 5 } = .error (.report (.notText "int" "strip")) ∧
    verdicts 10 [.ended (Utf8.encode longIndexProgram) [] 0,
      .ended (Utf8.encode "3") [] 0] digitTest =
      .error (.value .textLimit) := by
  refine ⟨?_, ?_, ?_⟩ <;> decide +kernel

end TacBench.Bench
