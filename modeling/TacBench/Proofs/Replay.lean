import TacBench.Bench.Trial
import TacBench.CommandLine.Interpret
import TacBench.Proofs.Encoding
import TacBench.Proofs.LogText
import TacBench.Proofs.WrittenFiles

/-! Logs as programs. The file that is saved of a test loads as the program that was compiled in
it. -/
namespace TacBench

open Text

-- What stands before the text grows until a break ends it, and breaks are breaks in both.
theorem Text.runs_unifyBreaks (s before : List Char) :
    runs isLineBreak (before ++ unifyBreaks s) = runs isLineBreak (before ++ s) := by
  have feed : isLineBreak '\n' = true := by decide
  have carriage : isLineBreak '\r' = true := by decide
  fun_induction unifyBreaks s generalizing before with
  | case1 => rfl
  | case2 r ih =>
    have rest : runs isLineBreak (unifyBreaks r) = runs isLineBreak r := ih []
    rw [runs_append_cons feed, runs_append_cons carriage, runs_cons_of_pos feed, rest]
  | case3 c r _ ih =>
    by_cases ends : c = '\r'
    · have rest : runs isLineBreak (unifyBreaks r) = runs isLineBreak r := ih []
      rw [if_pos ends, ends, runs_append_cons feed, runs_append_cons carriage, rest]
    · have longer := ih (before ++ [c])
      rw [List.append_assoc, List.append_assoc] at longer
      rw [if_neg ends]
      exact longer

theorem Text.mem_unifyBreaks {c : Char} {s : List Char} (member : c ∈ s) (other : c ≠ '\r') :
    c ∈ unifyBreaks s := by
  fun_induction unifyBreaks s with
  | case1 => exact member
  | case2 r ih =>
    rcases List.mem_cons.mp member with rfl | later
    · contradiction
    · rcases List.mem_cons.mp later with rfl | last
      · exact List.mem_cons_self
      · exact List.mem_cons_of_mem _ (ih last)
  | case3 d r _ ih =>
    rcases List.mem_cons.mp member with rfl | later
    · rw [if_neg other]
      exact List.mem_cons_self
    · exact List.mem_cons_of_mem _ (ih later)

namespace Program

open Machine

variable {code code' : String} {p : Program}

theorem tokenLines_unifyBreaks (s : List Char) : tokenLines (unifyBreaks s) = tokenLines s := by
  have same : runs isLineBreak (unifyBreaks s) = runs isLineBreak s := runs_unifyBreaks s []
  rw [tokenLines_eq_runs, tokenLines_eq_runs, same]

theorem not_blank_of_load (loaded : load code = .ok p) : code.toList.all isBlank = false := by
  unfold load at loaded
  dsimp only at loaded
  split at loaded
  · cases loaded
  · rename_i some
    exact Bool.not_eq_true _ ▸ some

theorem not_blank_of_sign {s : List Char} (sign : '#' ∈ s) : s.all isBlank = false := by
  rw [← Bool.not_eq_true]
  intro blank
  exact absurd (List.all_eq_true.mp blank '#' sign) (by decide)

theorem codes_refl {t : Tolerance} {code : List Char} (some : tokenLines code ≠ []) :
    t.Codes (tokenLines code) (tokenLines code) := by
  have words : ∀ ws ∈ tokenLines code, ws ≠ [] := by
    intro ws member
    simpa using (List.mem_filter.mp member).2
  cases same : tokenLines code with
  | nil => contradiction
  | cons first rest =>
    rw [same] at words
    refine .behind (.inl rfl) (List.forall₂_same.mpr fun ws member => ?_)
    exact .refl (words ws (List.mem_cons_of_mem first member))

/-- The commands of a program with their operands. -/
def commands (p : Program) : List (Opcode × List Operand) :=
  p.instructions.toList.map fun i => (i.opcode, i.operands)

/-- The code loads as a program of the same commands. -/
def Replays (p : Program) (code : String) : Prop :=
  ∃ p', load code = .ok p' ∧ p'.commands = p.commands

theorem operands_eq_of_strict {o o' : Operand} (like : Tolerance.strict.Operands o o') :
    o = o' := by
  cases like with
  | constant v => rfl
  | label name => rfl
  | dataType type => rfl
  | var spelled name => rw [show _ = _ from spelled]

theorem commands_eq_of_strict {is is' : List Instruction}
    (like : List.Forall₂ Tolerance.strict.Counterparts is is') :
    (is.map fun i => (i.opcode, i.operands)) = is'.map fun i => (i.opcode, i.operands) := by
  induction like with
  | nil => rfl
  | cons first _ ih =>
    have operands := List.forall₂_eq_eq_eq ▸ first.operands.imp fun _ _ => operands_eq_of_strict
    rw [List.map_cons, List.map_cons, first.opcode, operands, ih]

/-- A code with the lines of another one, at least one of them not blank, loads as the same
commands. -/
theorem load_of_tokenLines (same : tokenLines code'.toList = tokenLines code.toList)
    (some : code'.toList.all isBlank = false) (loaded : load code = .ok p) : p.Replays code' := by
  unfold Replays
  by_cases empty : tokenLines code.toList = []
  · have alone := load_of_comments (not_blank_of_load loaded) empty
    have alone' := load_of_comments some (same.trans empty)
    rw [alone] at loaded
    cases loaded
    exact ⟨_, alone', rfl⟩
  · have like : Tolerance.strict.Codes (tokenLines code.toList) (tokenLines code'.toList) := by
      rw [same]
      exact codes_refl empty
    have both := load_concur like
    rw [loaded] at both
    generalize load code' = r at both
    cases both with
    | ok like => exact ⟨_, rfl, (commands_eq_of_strict like).symm⟩

end Program

namespace Bench

open Program

variable {r : Runner} {report : Report} {sectionName : String} {run run' : Run}

theorem encoded_ok {pieces : List Text} {bytes : List UInt8}
    (written : Report.encoded pieces = (bytes, none)) :
    bytes = Utf8.encode (Text.shown pieces.flatten) := by
  induction pieces generalizing bytes with
  | nil =>
    cases written
    rw [Utf8.encode_eq]
    rfl
  | cons piece rest ih =>
    unfold Report.encoded at written
    split at written
    · cases written
    · rename_i first encoded
      have joined : Text.shown (piece :: rest).flatten = Text.shown piece ++
          Text.shown rest.flatten := by
        simp [Text.shown, Text.seen, String.ofList_append]
      cases later : Report.encoded rest with
      | mk more fault =>
        rw [later] at written
        cases written
        rw [joined, Utf8.encode_append, Utf8.encodeText_ok encoded, ih later]

theorem ran_bind {ε σ α β : Type} {x : EStateM ε σ α} {f : α → EStateM ε σ β} {s s' : σ} {b : β}
    (ran : (x >>= f).run s = .ok b s') :
    ∃ a between, x.run s = .ok a between ∧ (f a).run between = .ok b s' := by
  rw [EStateM.run_bind] at ran
  cases first : x.run s with
  | ok a between =>
    rw [first] at ran
    exact ⟨a, between, rfl, ran⟩
  | error e between =>
    rw [first] at ran
    contradiction

/-- Finding the name of a file warns of nothing. -/
theorem loading_fileName {name : Text} {found : Option String}
    (ran : (loading fun _ => fileName name).run run = .ok found run') :
    (fileName name).run [] = .ok found [] ∧ run = run' := by
  unfold loading fileName at ran
  unfold fileName
  cases bytes : name.mapM Utf8.nameBytes? with
  | none =>
    rw [bytes] at ran
    cases ran
  | some b =>
    rw [bytes] at ran
    cases ran
    exact ⟨rfl, rfl⟩

theorem ofFile_ok {α : Type} {e : Except Files.Fault α} {a : α}
    (ran : (ofFile e).run run = .ok a run') :
    e = .ok a ∧ run = run' := by
  cases e with
  | error f => cases ran
  | ok b =>
    cases ran
    exact ⟨rfl, rfl⟩

/-- A report that has been saved is in its file to the last byte. -/
theorem save_ok (saved : (r.save sectionName report).run run = .ok () run') :
    ∃ name content, (fileName report.test.name).run [] = .ok (some name) [] ∧
      report.bytes run.now r.options.noDifference r.extensions = (content, none) ∧
      run.files.write (r.logFile sectionName name) content = .ok run'.files := by
  unfold Runner.save at saved
  obtain ⟨found, _, asked, afterName⟩ := ran_bind saved
  obtain ⟨named, rfl⟩ := loading_fileName asked
  cases found with
  | none => cases afterName
  | some name =>
    obtain ⟨_, _, got, afterTime⟩ := ran_bind afterName
    cases got
    cases logged : report.bytes run.now r.options.noDifference r.extensions with
    | mk content fault =>
      rw [logged] at afterTime
      obtain ⟨_, _, got, afterState⟩ := ran_bind afterTime
      cases got
      obtain ⟨files, _, wrote, afterWrite⟩ := ran_bind afterState
      obtain ⟨written, rfl⟩ := ofFile_ok wrote
      obtain ⟨_, _, changed, afterFiles⟩ := ran_bind afterWrite
      cases changed
      cases fault with
      | some f => cases afterFiles
      | none =>
        obtain ⟨_, _, added, afterReport⟩ := ran_bind afterFiles
        cases added
        cases afterReport
        exact ⟨name, content, named, rfl, written⟩

theorem bytes_ok {content : List UInt8}
    (written : report.bytes run.now r.options.noDifference r.extensions = (content, none)) :
    ∃ pieces, report.pieces run.now r.options.noDifference r.extensions = (pieces, none) ∧
      content = Utf8.encode (Text.shown pieces.flatten) := by
  unfold Report.bytes at written
  cases made : report.pieces run.now r.options.noDifference r.extensions with
  | mk pieces fault =>
    rw [made] at written
    cases put : Report.encoded pieces with
    | mk bytes half =>
      simp only [put] at written
      cases half with
      | some h => cases written
      | none =>
        cases fault with
        | some f => cases written
        | none =>
          cases written
          exact ⟨pieces, rfl, encoded_ok put⟩

theorem sign_mem_pieces {pieces : List Text}
    (made : report.pieces run.now r.options.noDifference r.extensions = (pieces, none)) :
    CodePoint.char '#' ∈ pieces.flatten := by
  have inside : CodePoint.char '#' ∈ Report.divider := by decide +kernel
  unfold Report.pieces at made
  split at made
  · cases made
  · cases made
    exact List.mem_flatten.mpr ⟨Report.divider, by simp, inside⟩
  · cases made

/-- The file that is saved of a test loads as the program that was compiled in it, whether or not
its line breaks are unified first. -/
theorem saved_log_replays {p : Program} {name : String} (plain : report.Plain run.now r.extensions)
    (accepted : Program.load (report.compilerStdout.getD []).shown = .ok p)
    (saved : (r.save sectionName report).run run = .ok () run')
    (named : (fileName report.test.name).run [] = .ok (some name) [])
    (real : run.files.get? (r.logFile sectionName name) ≠ some .sink) :
    ∃ bytes text code, run'.files.read (r.logFile sectionName name) = .ok bytes ∧
      Utf8.decode bytes = .ok text ∧ p.Replays text ∧
      CommandLine.Interpret.codeIn run'.files (r.logFile sectionName name) = .ok code ∧
      p.Replays code := by
  obtain ⟨found, content, named', logged, written⟩ := save_ok saved
  cases named.symm.trans named'
  obtain ⟨pieces, made, rfl⟩ := bytes_ok logged
  have read := Files.Tree.read_of_write written real
  have decoded := Utf8.decode_encode (Text.shown pieces.flatten)
  have words : tokenLines (Text.shown pieces.flatten).toList =
      tokenLines (report.compilerStdout.getD []).shown.toList := by
    have same := Report.tokenLines_pieces plain made
    rwa [Text.shown, Text.shown, String.toList_ofList, String.toList_ofList]
  have sign : '#' ∈ (Text.shown pieces.flatten).toList := by
    rw [Text.shown, String.toList_ofList]
    exact List.mem_map.mpr ⟨_, sign_mem_pieces made, rfl⟩
  generalize Text.shown pieces.flatten = text at read decoded words sign
  have unified : tokenLines (String.ofList (unifyBreaks text.toList)).toList =
      tokenLines (report.compilerStdout.getD []).shown.toList := by
    rw [String.toList_ofList, tokenLines_unifyBreaks, words]
  have sign' : '#' ∈ (String.ofList (unifyBreaks text.toList)).toList := by
    rw [String.toList_ofList]
    exact mem_unifyBreaks sign (by decide)
  have code : CommandLine.Interpret.codeIn run'.files (r.logFile sectionName name) =
      .ok (String.ofList (unifyBreaks text.toList)) := by
    simp only [CommandLine.Interpret.codeIn, read, CommandLine.Interpret.code, decoded]
  exact ⟨_, text, _, read, decoded, load_of_tokenLines words (not_blank_of_sign sign) accepted,
    code, load_of_tokenLines unified (not_blank_of_sign sign') accepted⟩

/-- A test that fails: its output has one line too many, which looks like an instruction. -/
def outputTooLong : Report where
  test := {
    name := "sum", code := .str "a\nb", stdin := .str "1\n2", stdout := .str "3\n",
    compilerExit := 0, interpreterExit := 0, info := .str "adds", directory := "tests/basic",
    extensions := [.str "BASE"], timeout := .int 1 }
  compilerStdout := some (Text.ofString ".IFJcode17\n\nWRITE string@3 # out\n")
  compilerStderr := some (Text.ofString "first\nsecond")
  interpreterStdout := some (Text.ofString "3\u2028JUMP x\n")
  success := some false

def threeWritten : Program where
  instructions := #[⟨.write, [.constant (.str "3")], 3, "WRITE string@3"⟩]

def smallRunner : Runner where
  options := {
    compiler := "compiler", interpreter := "interpreter", noInterpreter := false, timeout := .int 1,
    logDirectory := none, testsDirectory := "tests", wildcards := [], extensionsFile := none,
    noColors := true, verbose := false, noDifference := false, tokenFile := none, host := "" }
  suite := { directory := "tests", timeout := .int 1, wildcards := [], nesting := 985 }
  extensions := ["BASE"]
  extensionsFrom := none
  logDirectory := "/logs"

/-- Before the log is saved; the directory for it is there. -/
def smallRun : Run where
  platform := { nesting := 985 }
  files := { top := "/", nodes := [(["logs"], .directory), (["basic", "logs"], .directory)] }
  now := "2017-12-01 12:00:00"
  log := {}
  uploader := { host := "", tokenFile := "" }

theorem outputTooLong_plain : outputTooLong.Plain smallRun.now smallRunner.extensions where
  now := by decide
  directory := by decide
  name := by decide
  info := by decide
  required s member := by
    cases List.mem_singleton.mp member
    decide
  activated := by decide
  stdin s same := by
    cases same
    decide
  compilerStderr := by decide
  interpreterStderr := by decide

/-- The state in which a computation has ended well. -/
def ended? {ε σ α : Type} : EStateM.Result ε σ α → Option σ
  | .ok _ s => some s
  | .error _ _ => none

theorem ok_of_ended? {ε σ : Type} {result : EStateM.Result ε σ Unit}
    (ended : (ended? result).isSome = true) :
    ∃ s, result = .ok () s := by
  cases result with
  | ok u s => exact ⟨s, rfl⟩
  | error e s => contradiction

theorem outputTooLong_replays :
    outputTooLong.Plain smallRun.now smallRunner.extensions ∧
    Program.load (outputTooLong.compilerStdout.getD []).shown = .ok threeWritten ∧
    ∃ run', (smallRunner.save "basic" outputTooLong).run smallRun = .ok () run' ∧
      ∃ bytes text code, run'.files.read "/logs/basic/sum.IFJcode17" = .ok bytes ∧
        Utf8.decode bytes = .ok text ∧ threeWritten.Replays text ∧
        CommandLine.Interpret.codeIn run'.files "/logs/basic/sum.IFJcode17" = .ok code ∧
        threeWritten.Replays code := by
  have accepted : Program.load (outputTooLong.compilerStdout.getD []).shown = .ok threeWritten :=
    eq_ok_of_toOption (by decide +kernel)
  have named : (fileName outputTooLong.test.name).run [] = .ok (some "sum") [] := by
    have bytes : outputTooLong.test.name.mapM Utf8.nameBytes? = some [[115], [117], [109]] := by
      decide +kernel
    have decoded : (Utf8.decode [115, 117, 109]).toOption = some "sum" := by decide +kernel
    rw [fileName, bytes]
    exact congrArg (EStateM.Result.ok · []) decoded
  obtain ⟨run', saved⟩ : ∃ run', (smallRunner.save "basic" outputTooLong).run smallRun =
      .ok () run' :=
    ok_of_ended? (by decide +kernel)
  have path : smallRunner.logFile "basic" "sum" = "/logs/basic/sum.IFJcode17" := by decide +kernel
  have replayed := saved_log_replays outputTooLong_plain accepted saved named (by decide +kernel)
  rw [path] at replayed
  exact ⟨outputTooLong_plain, accepted, run', saved, replayed⟩

end Bench
end TacBench
