import DocQuery.Command.Log
import DocQuery.Proofs.Command.Arguments
import DocQuery.Proofs.Json.Reading
import DocQuery.Proofs.Scan.Strictness

/-!
# The outcome of a run

A run that cannot load its settings, its query or its input fails at the first of them and writes
nothing. Any other run is the scan of that input: it writes what the scan writes, succeeds if the scan
does, and logs its counts or one error (`run_outcome`).
-/

namespace DocQuery.Command

/-! ### What a run loads -/

/-- The settings in the file that is named, and those left unset if none is. -/
inductive SettingsOf (files : Files) : Option String → Settings → Prop
  | unset : SettingsOf files none .unset
  | read {path text : String} {settings : Settings} : files.text? path = some text →
      Settings.parse? text = some settings → SettingsOf files (some path) settings

/-- The bytes of the file that is named, and those of standard input if none is. -/
inductive InputOf (files : Files) (stdin : List UInt8) : Option String → List UInt8 → Prop
  | stdin : InputOf files stdin none stdin
  | file {path : String} {content : List UInt8} : files path = some (.file content) →
      InputOf files stdin (some path) content

structure Loads (files : Files) (stdin : List UInt8) (arguments : Arguments) (settings : Settings)
    (query : Json) (input : List UInt8) : Prop where
  loaded : SettingsOf files arguments.config settings
  resolved : resolveQuery files arguments settings = .ok query
  opened : InputOf files stdin arguments.input input

/-- The parts of a run, in their order. -/
inductive Stage where
  | settings
  | query
  | input
  | scan
deriving DecidableEq

def Error.stage : Error → Stage
  | .unreadableSettings _ => .settings
  | .invalidSettings _ => .settings
  | .invalidQueryOption _ => .query
  | .unreadableQueryFile _ => .query
  | .invalidQueryFile _ _ => .query
  | .invalidQueryVariable _ => .query
  | .noQuery => .query
  | .unreadableInput _ => .input
  | .scan _ => .scan

/-- The first of settings, query and input that cannot be loaded. -/
inductive Lacks (files : Files) (stdin : List UInt8) (arguments : Arguments) : Stage → Prop
  | settings : (∀ settings, ¬SettingsOf files arguments.config settings) →
      Lacks files stdin arguments .settings
  | query {settings : Settings} : SettingsOf files arguments.config settings →
      (∀ query, resolveQuery files arguments settings ≠ .ok query) →
        Lacks files stdin arguments .query
  | input {settings : Settings} {query : Json} : SettingsOf files arguments.config settings →
      resolveQuery files arguments settings = .ok query →
        (∀ input, ¬InputOf files stdin arguments.input input) → Lacks files stdin arguments .input

section

variable {files : Files} {stdin input : List UInt8} {arguments : Arguments} {settings : Settings}
variable {query : Json}

theorem loadSettings_ok_iff {config : Option String} :
    loadSettings files config = .ok settings ↔ SettingsOf files config settings := by
  constructor
  · intro loaded
    unfold loadSettings at loaded
    split at loaded
    · cases loaded
      exact .unset
    · split at loaded
      · cases loaded
      · rename_i text read
        split at loaded
        · cases loaded
        · rename_i found parsed
          cases loaded
          exact .read read parsed
  · rintro (_ | ⟨read, parsed⟩)
    · rfl
    · simp only [loadSettings, read, parsed]

theorem stage_of_loadSettings {config : Option String} {e : Error}
    (failed : loadSettings files config = .error e) : e.stage = .settings := by
  unfold loadSettings at failed
  split at failed
  · cases failed
  · split at failed
    · cases failed
      rfl
    · split at failed
      · cases failed
        rfl
      · cases failed

theorem mapError_eq_ok_iff {ε δ α : Type} {error : ε → δ} {result : Except ε α} {value : α} :
    result.mapError error = .ok value ↔ result = .ok value := by
  cases result with
  | ok found =>
    constructor
    · rintro ⟨⟩
      rfl
    · rintro ⟨⟩
      rfl
  | error cause => constructor <;> rintro ⟨⟩

theorem stage_of_mapError {error : ReadError → Error} {text : String} {e : Error} {stage : Stage}
    (about : ∀ cause, (error cause).stage = stage)
    (failed : (Json.parse text).mapError error = .error e) : e.stage = stage := by
  cases parsed : Json.parse text with
  | ok value => rw [parsed] at failed; cases failed
  | error cause =>
    rw [parsed] at failed
    cases failed
    exact about cause

theorem stage_of_resolveQuery {e : Error} (failed : resolveQuery files arguments settings = .error e) :
    e.stage = .query := by
  unfold resolveQuery at failed
  split at failed
  · exact stage_of_mapError (fun _ => rfl) failed
  · split at failed
    · cases failed
      rfl
    · exact stage_of_mapError (fun _ => rfl) failed
  · exact stage_of_mapError (fun _ => rfl) failed
  · split at failed
    · cases failed
    · cases failed
      rfl

theorem openInput_ok_iff {path : Option String} :
    openInput files stdin path = .ok input ↔ InputOf files stdin path input := by
  constructor
  · intro opened
    unfold openInput at opened
    split at opened
    · cases opened
      exact .stdin
    · split at opened
      · rename_i found
        cases opened
        exact .file found
      · cases opened
  · rintro (_ | found)
    · rfl
    · simp only [openInput, found]

theorem stage_of_openInput {path : Option String} {e : Error}
    (failed : openInput files stdin path = .error e) : e.stage = .input := by
  unfold openInput at failed
  split at failed
  · cases failed
  · split at failed
    · cases failed
    · cases failed
      rfl

theorem prepare_of_loads (loads : Loads files stdin arguments settings query input) :
    prepare files stdin arguments = .ok ⟨scanOptions arguments settings, query, input⟩ := by
  simp only [prepare, loadSettings_ok_iff.mpr loads.loaded, loads.resolved,
    openInput_ok_iff.mpr loads.opened]

theorem prepare_of_lacks {stage : Stage} (lacks : Lacks files stdin arguments stage) :
    ∃ e, prepare files stdin arguments = .error e ∧ e.stage = stage := by
  unfold prepare
  cases lacks with
  | settings never =>
    cases loaded : loadSettings files arguments.config with
    | ok settings => exact absurd (loadSettings_ok_iff.mp loaded) (never settings)
    | error e => exact ⟨e, rfl, stage_of_loadSettings loaded⟩
  | query loaded never =>
    rw [loadSettings_ok_iff.mpr loaded]
    dsimp only
    cases resolved : resolveQuery files arguments _ with
    | ok query => exact absurd resolved (never query)
    | error e => exact ⟨e, rfl, stage_of_resolveQuery resolved⟩
  | input loaded resolved never =>
    rw [loadSettings_ok_iff.mpr loaded]
    dsimp only
    rw [resolved]
    dsimp only
    cases opened : openInput files stdin arguments.input with
    | ok input => exact absurd (openInput_ok_iff.mp opened) (never input)
    | error e => exact ⟨e, rfl, stage_of_openInput opened⟩

theorem lacks_or_loads (files : Files) (stdin : List UInt8) (arguments : Arguments) :
    (∃ stage, Lacks files stdin arguments stage) ∨
      ∃ settings query input, Loads files stdin arguments settings query input := by
  by_cases loaded : ∃ settings, SettingsOf files arguments.config settings
  · obtain ⟨settings, loaded⟩ := loaded
    cases resolved : resolveQuery files arguments settings with
    | error e => exact .inl ⟨.query, .query loaded (by simp [resolved])⟩
    | ok query =>
      by_cases opened : ∃ input, InputOf files stdin arguments.input input
      · obtain ⟨input, opened⟩ := opened
        exact .inr ⟨settings, query, input, loaded, resolved, opened⟩
      · exact .inl ⟨.input, .input loaded resolved (not_exists.mp opened)⟩
  · exact .inl ⟨.settings, .settings (not_exists.mp loaded)⟩

/-! ### What a run leaves behind -/

/-- What an event puts into the log. -/
def Event.record (e : Event) : Level × String × List (String × Nat) := (e.level, e.message, e.fields)

theorem run_of_loads (loads : Loads files stdin arguments settings query input) :
    run files stdin arguments =
      { output := (Scan.run (scanOptions arguments settings) (Query.compile query) input).output
        warning := (Scan.run (scanOptions arguments settings) (Query.compile query) input).warning
        result :=
          (Scan.run (scanOptions arguments settings) (Query.compile query) input).result.mapError .scan } := by
  rw [run, prepare_of_loads loads]

theorem run_of_lacks {stage : Stage} (lacks : Lacks files stdin arguments stage) :
    ∃ e, run files stdin arguments = ⟨[], none, .error e⟩ ∧ e.stage = stage := by
  obtain ⟨e, failed, about⟩ := prepare_of_lacks lacks
  exact ⟨e, by rw [run, failed], about⟩

/-- The warning of a run is the one that its counts call for, and a run that fails has given none. -/
theorem run_warning (files : Files) (stdin : List UInt8) (arguments : Arguments) :
    (run files stdin arguments).warning =
      (run files stdin arguments).result.toOption.bind Scan.Summary.warning := by
  unfold run
  split
  · rfl
  · dsimp only
    rw [Scan.run_warning]
    cases (Scan.run _ _ _).result <;> rfl

theorem success_iff {report : Report} :
    report.success = true ↔ ∃ summary, report.result = .ok summary := by
  unfold Report.success
  cases report.result <;> simp [Except.isOk, Except.toBool]

theorem events_of_ok {summary : Scan.Summary}
    (completed : (run files stdin arguments).result = .ok summary) :
    (run files stdin arguments).events.map Event.record =
      (if 0 < summary.faults then
        [(.warn, "some documents could not be evaluated", [("faults", summary.faults)])] else []) ++
      [(.info, "done", [("scanned", summary.scanned), ("matched", summary.matched),
        ("faults", summary.faults)])] := by
  unfold Report.events
  rw [run_warning, completed]
  dsimp only [Except.toOption, Option.bind, Scan.Summary.warning]
  split <;> rfl

theorem events_of_failure (failed : (run files stdin arguments).success = false) :
    ∃ e, (run files stdin arguments).events = [e] ∧ e.level = .error := by
  unfold Report.success at failed
  unfold Report.events
  rw [run_warning]
  cases ended : (run files stdin arguments).result with
  | ok summary => rw [ended] at failed; cases failed
  | error e => exact ⟨.failed e, rfl, rfl⟩

theorem no_warning (unfailing : ∀ summary, (run files stdin arguments).result = .ok summary →
    summary.faults = 0) : ∀ e ∈ (run files stdin arguments).events, e.level ≠ .warn := by
  unfold Report.events
  rw [run_warning]
  cases ended : (run files stdin arguments).result with
  | error e => simp [Event.level, Except.toOption]
  | ok summary =>
    simp [Scan.Summary.warning, unfailing summary ended, Event.level, Except.toOption]

/-- A run that is given the bytes in a file is the run that is given them on standard input. -/
theorem run_of_input {path : String} {content : List UInt8} (free : arguments.input = none)
    (found : files path = some (.file content)) :
    run files stdin { arguments with input := some path } = run files content arguments := by
  have same : prepare files stdin { arguments with input := some path } =
      prepare files content arguments := by
    unfold prepare
    rw [free]
    simp only [openInput, found]
    rfl
  rw [run, same, run]

end

/-- Whatever arguments are accepted: a run that lacks its settings, its query or its input fails at the
first of them without output. Any other run writes what the scan of its input writes, whether that
ends or fails, and succeeds exactly if it ends. A run that succeeds logs its faults, if there are any,
and its counts; one that fails logs one error. A strict run logs no warning. The same bytes in a file
and on standard input give the same. -/
theorem run_outcome {seen files : Files} {environment : Environment} {words : List String}
    {arguments : Arguments} (accepted : Arguments.parse seen environment words = .ok arguments)
    (stdin : List UInt8) :
    let report := run files stdin arguments
    ((∃ stage, Lacks files stdin arguments stage) ∨
        ∃ settings query input, Loads files stdin arguments settings query input) ∧
      (∀ stage, Lacks files stdin arguments stage →
        report.output = [] ∧ report.success = false ∧
          ∃ e, report.result = .error e ∧ e.stage = stage) ∧
      (∀ settings query input, Loads files stdin arguments settings query input →
        let strict := arguments.strictOverride.getD settings.strict
        let scan := Scan.run ⟨arguments.count, strict⟩ (Query.compile query) input
        report.output = scan.output ∧
          (report.success = true ↔ ∃ summary, scan.result = .ok summary) ∧
          (∀ summary, scan.result = .ok summary → report.events.map Event.record =
            (if 0 < summary.faults then
              [(.warn, "some documents could not be evaluated", [("faults", summary.faults)])]
              else []) ++
            [(.info, "done", [("scanned", summary.scanned), ("matched", summary.matched),
              ("faults", summary.faults)])]) ∧
          (strict = true → ∀ e ∈ report.events, e.level ≠ .warn)) ∧
      (report.success = false → ∃ e, report.events = [e] ∧ e.level = .error) ∧
      (arguments.input = none → ∀ path content, files path = some (.file content) →
        run files stdin { arguments with input := some path } = run files content arguments ∧
          ∀ other, seen path = some (.file other) →
            Arguments.parse seen environment (("--input=" ++ path) :: words) =
              .ok { arguments with input := some path }) := by
  intro report
  refine ⟨lacks_or_loads files stdin arguments, fun stage lacks => ?_, fun settings query input loads => ?_,
    events_of_failure, fun free path content found => ⟨run_of_input free found, fun other there =>
      Arguments.parse_input accepted free there⟩⟩
  · obtain ⟨e, failed, about⟩ := run_of_lacks lacks
    have ended : report = ⟨[], none, .error e⟩ := failed
    rw [ended]
    exact ⟨rfl, rfl, e, rfl, about⟩
  · intro strict scan
    have ended : report = ⟨scan.output, scan.warning, scan.result.mapError .scan⟩ :=
      run_of_loads loads
    have completed : ∀ summary, report.result = .ok summary ↔ scan.result = .ok summary := by
      intro summary
      rw [ended]
      exact mapError_eq_ok_iff
    refine ⟨by rw [ended], success_iff.trans (exists_congr completed), fun summary done =>
      events_of_ok ((completed summary).mpr done), fun failing => no_warning fun summary done => ?_⟩
    have scanned := (completed summary).mp done
    simp only [scan, failing] at scanned
    exact Scan.faults_of_strict scanned

theorem run_outcome_faulted :
    let text := "\x7b\"a\":\x7b\"$gt\":1\x7d\x7d"
    let words := ["--query=\x7b\"a\":\x7b\"$gt\":1\x7d\x7d"]
    let environment : Environment := ⟨none, none, none, none⟩
    let arguments : Arguments := ⟨some text, false, none, none, none, false, false, false, "warn"⟩
    let q : Json := .object [("a", .object [("$gt", .number (.natural 1 (by decide)))])]
    let input := bytesOf "\x7b\"a\":\"x\"\x7d\n\x7b\"a\":2\x7d\n"
    let files : Files := fun path => if path = "in" then some (.file input) else none
    let report := run files input arguments
    Arguments.parse files environment words = .ok arguments ∧
      Loads files input arguments .unset q input ∧
      report.output = bytesOf "\x7b\"a\":2\x7d\n" ∧ report.success = true ∧
      report.events.map Event.record =
        [(.warn, "some documents could not be evaluated", [("faults", 1)]),
          (.info, "done", [("scanned", 2), ("matched", 1), ("faults", 1)])] ∧
      run files [] { arguments with input := some "in" } = report ∧
      Arguments.parse files environment ("--input=in" :: words) =
        .ok { arguments with input := some "in" } := by
  intro text words environment arguments q input files report
  have accepted : Arguments.parse files environment words = .ok arguments := rfl
  have written : q.text = text := by decide +kernel
  have settled : q.Settled := by simp [q, Json.Settled, Json.SettledEntries]
  have parsed : Json.parse text = .ok q := written ▸ Json.parse_text settled rfl (by decide)
  have resolved : resolveQuery files arguments .unset = .ok q := by
    show (Json.parse text).mapError Error.invalidQueryOption = .ok q
    exact mapError_eq_ok_iff.mpr parsed
  have loads : Loads files input arguments .unset q input := ⟨.unset, resolved, .stdin⟩
  obtain ⟨_, _, scanned, _⟩ := run_outcome accepted input
  obtain ⟨output, success, logged, _⟩ := scanned .unset q input loads
  obtain ⟨_, _, _, _, given⟩ := @run_outcome files files environment words arguments accepted []
  obtain ⟨same, there⟩ := given rfl "in" input rfl
  have counted : (Scan.run ⟨false, false⟩ (Query.compile q) input).result.toOption =
      some ⟨2, 1, 1⟩ := by decide +kernel
  have completed := Scan.ok_of_toOption counted
  exact ⟨accepted, loads, output.trans (by decide +kernel), success.mpr ⟨_, completed⟩,
    logged _ completed, same, there input rfl⟩

end DocQuery.Command
