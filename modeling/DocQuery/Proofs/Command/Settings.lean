import DocQuery.Proofs.Command.LastFlag
import DocQuery.Proofs.Command.Outcome
import DocQuery.Proofs.Command.Precedence

/-!
# What a run takes from its settings

A settings file that is named is loaded in any case, and one that cannot be loaded ends the run
(`unloadable_iff`). Of settings that are loaded a run takes the query, unless the words or the
environment give one, and the strictness, unless the words ask for one (`settings_shielded`).
-/

namespace DocQuery.Command

open Arguments (given? parse tokens)

/-- An entry that settings cannot have: its key is none of theirs, or its strictness is no boolean. -/
inductive Unsuitable : String × Json → Prop
  | unknown {key : String} {value : Json} : key ≠ "query" → key ≠ "strict" → Unsuitable (key, value)
  | untyped {key : String} {value : Json} : key = "strict" → (∀ b, value ≠ .bool b) →
      Unsuitable (key, value)

/-- A settings file that is missing or no text, is no TOML, or has an entry that settings cannot have. -/
inductive Unloadable (files : Files) (path : String) : Prop
  | unreadable : files.text? path = none → Unloadable files path
  | malformed {text : String} : files.text? path = some text → Toml.parse? text = none →
      Unloadable files path
  | unsuitable {text : String} {entries : List (String × Json)} {entry : String × Json} :
      files.text? path = some text → Toml.parse? text = some entries → entry ∈ entries →
        Unsuitable entry → Unloadable files path

/-- The words give a query or a query file, or the environment gives a query. -/
def GivesQuery (words : List String) (environment : Environment) : Prop :=
  (given? .query (tokens words)).isSome ∨ (given? .queryFile (tokens words)).isSome ∨
    environment.query.isSome

def AsksStrictness (words : List String) : Prop := "--strict" ∈ words ∨ "--no-strict" ∈ words

variable {seen files files' : Files} {environment : Environment} {words : List String}
variable {arguments : Arguments} {settings settings' : Settings} {config config' : Option String}
variable {path : String} {stdin : List UInt8}

/-! ### Loading -/

theorem foldlM_eq_none_iff {σ α : Type} {step : σ → α → Option σ} {Refused : α → Prop}
    (refuses : ∀ s a, step s a = none ↔ Refused a) (s : σ) (as : List α) :
    as.foldlM step s = none ↔ ∃ a ∈ as, Refused a := by
  induction as generalizing s with
  | nil => simp
  | cons a as ih =>
    rw [List.foldlM_cons, List.exists_mem_cons_iff, ← refuses s a]
    cases stepped : step s a with
    | none => simp
    | some next => simpa using ih next

theorem ofEntries?_eq_none_iff {entries : List (String × Json)} :
    Settings.ofEntries? entries = none ↔ ∃ entry ∈ entries, Unsuitable entry := by
  refine foldlM_eq_none_iff (fun settings (key, value) => ?_) _ _
  dsimp only
  split
  · rename_i query
    subst query
    refine iff_of_false nofun ?_
    rintro (⟨apart, _⟩ | ⟨strict, _⟩)
    · exact apart rfl
    · exact absurd strict (by decide)
  · rename_i query
    split
    · rename_i strict
      subst strict
      cases value with
      | bool b =>
        refine iff_of_false nofun ?_
        rintro (⟨_, apart⟩ | ⟨_, untyped⟩)
        · exact apart rfl
        · exact untyped b rfl
      | _ => exact iff_of_true rfl (.untyped rfl nofun)
    · rename_i strict
      exact iff_of_true rfl (.unknown query strict)

theorem unloadable_iff :
    Unloadable files path ↔ ∀ settings, ¬SettingsOf files (some path) settings := by
  constructor
  · rintro broken settings (_ | ⟨read, parsed⟩)
    unfold Settings.parse? at parsed
    cases broken with
    | unreadable missing => cases missing.symm.trans read
    | malformed found failed =>
      obtain rfl := Option.some.inj (found.symm.trans read)
      rw [failed] at parsed
      cases parsed
    | unsuitable found entries member refused =>
      obtain rfl := Option.some.inj (found.symm.trans read)
      rw [entries, Option.bind_some, ofEntries?_eq_none_iff.mpr ⟨_, member, refused⟩] at parsed
      cases parsed
  · intro never
    cases read : files.text? path with
    | none => exact .unreadable read
    | some text =>
      cases parsed : Toml.parse? text with
      | none => exact .malformed read parsed
      | some entries =>
        cases made : Settings.ofEntries? entries with
        | none =>
          obtain ⟨entry, member, refused⟩ := ofEntries?_eq_none_iff.mp made
          exact .unsuitable read parsed member refused
        | some settings =>
          exact absurd (.read read (by rw [Settings.parse?, parsed]; exact made)) (never settings)

/-! ### The query -/

theorem sources_eq_append (words : List String) (environment : Environment) (settings : Settings) :
    sources words environment settings =
      sources words environment .unset ++ (settings.query.map QuerySource.settings).toList := by
  simp [sources, Settings.unset]

theorem sources_unset_ne_nil (given : GivesQuery words environment) :
    sources words environment .unset ≠ [] := by
  intro none
  simp only [sources, List.append_eq_nil_iff, Option.toList_eq_nil_iff, Option.map_eq_none_iff] at none
  obtain ⟨⟨⟨query, queryFile⟩, fromEnvironment⟩, _⟩ := none
  simp [GivesQuery, query, queryFile, fromEnvironment] at given

theorem queryFile_of_mem (accepted : parse seen environment words = .ok arguments)
    (member : QuerySource.file path ∈ sources words environment .unset) :
    arguments.queryFile = some path := by
  obtain ⟨_, _, _, queryFile⟩ := Arguments.query_of_words accepted
  simpa [sources, Settings.unset, queryFile] using member

/-- The settings are the last source of the query, and the others read no file but the query file. -/
theorem resolveQuery_congr (accepted : parse seen environment words = .ok arguments)
    (same : ∀ path, arguments.queryFile = some path → files' path = files path)
    (unused : GivesQuery words environment ∨ settings.query = settings'.query) :
    resolveQuery files arguments settings = resolveQuery files' arguments settings' := by
  rw [resolveQuery_eq accepted, resolveQuery_eq accepted, sources_eq_append,
    sources_eq_append _ _ settings']
  cases outer : sources words environment .unset with
  | nil =>
    rw [unused.resolve_left fun given => sources_unset_ne_nil given outer]
    cases settings'.query <;> rfl
  | cons first lower =>
    refine (read_congr fun path file => same path (queryFile_of_mem accepted ?_)).symm
    rw [outer, file]
    exact List.mem_cons_self

/-! ### The run -/

theorem strictOverride_of_asks (accepted : parse seen environment words = .ok arguments)
    (asks : AsksStrictness words) : arguments.strictOverride ≠ none := by
  rw [Arguments.strictOverride_of_parse accepted]
  intro none
  obtain ⟨noStrict, noLenient⟩ :=
    Arguments.askedStrictness_eq_nil_iff.mp (List.getLast?_eq_none_iff.mp none)
  rcases asks with strict | lenient
  · exact noStrict strict
  · exact noLenient lenient

theorem scanOptions_congr (accepted : parse seen environment words = .ok arguments)
    (unused : AsksStrictness words ∨ settings.strict = settings'.strict) :
    scanOptions arguments settings = scanOptions arguments settings' := by
  unfold scanOptions
  rcases unused with asks | same
  · obtain ⟨strict, asked⟩ := Option.ne_none_iff_exists'.mp (strictOverride_of_asks accepted asks)
    rw [asked]
    rfl
  · rw [same]

theorem openInput_congr (same : ∀ path, arguments.input = some path → files' path = files path) :
    openInput files stdin arguments.input = openInput files' stdin arguments.input := by
  cases input : arguments.input with
  | none => rfl
  | some path => simp only [openInput, same path input]

/-- Once its settings are loaded, a run does not look at their file again. -/
theorem prepare_of_settings (loaded : SettingsOf files config settings) :
    prepare files stdin { arguments with config := config } =
      match resolveQuery files arguments settings with
      | .error e => .error e
      | .ok query =>
        match openInput files stdin arguments.input with
        | .error e => .error e
        | .ok input => .ok ⟨scanOptions arguments settings, query, input⟩ := by
  rw [prepare, loadSettings_ok_iff.mpr loaded]
  rfl

theorem run_congr (accepted : parse seen environment words = .ok arguments)
    (loaded : SettingsOf files config settings) (loaded' : SettingsOf files' config' settings')
    (same : ∀ path, arguments.queryFile = some path ∨ arguments.input = some path →
      files' path = files path)
    (query : GivesQuery words environment ∨ settings.query = settings'.query)
    (strict : AsksStrictness words ∨ settings.strict = settings'.strict) :
    run files stdin { arguments with config := config } =
      run files' stdin { arguments with config := config' } := by
  have resolved := resolveQuery_congr accepted (fun path file => same path (.inl file)) query
  have options := scanOptions_congr accepted strict
  have opened : openInput files stdin arguments.input = openInput files' stdin arguments.input :=
    openInput_congr fun path file => same path (.inr file)
  rw [run, run, prepare_of_settings loaded, prepare_of_settings loaded', resolved, options, opened]

theorem run_of_unloadable (broken : Unloadable files path) :
    ∃ e, run files stdin { arguments with config := some path } = ⟨[], none, .error e⟩ ∧
      e.stage = .settings :=
  run_of_lacks (.settings (unloadable_iff.mp broken))

/-- Whatever arguments are accepted: two runs with settings that load, from one file, from two or from
none, give the same, if the words or the environment give a query or the settings have the same one, and
if the words ask for a strictness or the settings have the same one. The files of the query and of the
input are the same in both. A settings file that cannot be loaded ends the run before it writes, whether
its settings would be used or not. Where the words name no settings file, the environment can name any. -/
theorem settings_shielded (accepted : parse seen environment words = .ok arguments)
    (stdin : List UInt8) :
    (∀ files config settings files' config' settings',
        SettingsOf files config settings → SettingsOf files' config' settings' →
          (∀ path, arguments.queryFile = some path ∨ arguments.input = some path →
            files' path = files path) →
            (GivesQuery words environment ∨ settings.query = settings'.query) →
              (AsksStrictness words ∨ settings.strict = settings'.strict) →
                run files stdin { arguments with config := config } =
                  run files' stdin { arguments with config := config' }) ∧
      (∀ files path,
        ((∀ settings, ¬SettingsOf files (some path) settings) ↔ Unloadable files path) ∧
          (Unloadable files path →
            let report := run files stdin { arguments with config := some path }
            report.success = false ∧ report.output = [] ∧
              ∃ e, report.events = [.failed e] ∧ e.stage = .settings)) ∧
      ∀ config, config ≠ some "" →
        parse seen { environment with config := config } words =
          .ok { arguments with config := (given? .config (tokens words)).or config } := by
  refine ⟨fun files config settings files' config' settings' => run_congr accepted,
    fun files path => ⟨unloadable_iff.symm, fun broken => ?_⟩,
    fun config => Arguments.parse_config accepted⟩
  obtain ⟨e, failed, about⟩ := run_of_unloadable broken
  intro report
  have ended : report = ⟨[], none, .error e⟩ := failed
  rw [ended]
  exact ⟨rfl, rfl, e, rfl, about⟩

/-- Strict settings against the words, and no settings at all. An unknown key ends the run all the same. -/
theorem settings_shielded_both :
    let files : Files := fun path =>
      if path = "s.toml" then some (.file (bytesOf "strict = true\n"))
      else if path = "t.toml" then some (.file (bytesOf "limit = 10\n"))
      else none
    let words := ["--query=\x7b\x7d", "--no-strict"]
    let environment : Environment := ⟨none, some "s.toml", none, none⟩
    let arguments : Arguments :=
      ⟨some "\x7b\x7d", false, none, some "s.toml", none, false, false, true, "warn"⟩
    parse files environment words = .ok arguments ∧
      (∃ settings, SettingsOf files (some "s.toml") settings ∧ settings.strict = true) ∧
      run files [] arguments = run files [] { arguments with config := none } ∧
      parse files { environment with config := none } words = .ok { arguments with config := none } ∧
      Unloadable files "t.toml" ∧
      (run files [] { arguments with config := some "t.toml" }).success = false := by
  intro files words environment arguments
  have accepted : parse files environment words = .ok arguments := rfl
  have read : files.text? "s.toml" = some "strict = true\n" := decode?_eq_some_iff.mpr rfl
  have held : (Settings.parse? "strict = true\n").map Settings.strict = some true := by decide +kernel
  obtain ⟨settings, parsed, strict⟩ := Option.map_eq_some_iff.mp held
  have read' : files.text? "t.toml" = some "limit = 10\n" := decode?_eq_some_iff.mpr rfl
  have keys : (Toml.parse? "limit = 10\n").map (List.map Prod.fst) = some ["limit"] := by
    decide +kernel
  obtain ⟨entries, parsed', keys⟩ := Option.map_eq_some_iff.mp keys
  obtain ⟨⟨_, value⟩, member, rfl⟩ := List.mem_map.mp (keys ▸ List.mem_cons_self)
  have loaded : SettingsOf files (some "s.toml") settings := .read read parsed
  have broken : Unloadable files "t.toml" :=
    .unsuitable read' parsed' member (.unknown (by decide) (by decide))
  obtain ⟨shielded, fails, renamed⟩ := settings_shielded accepted []
  have same := shielded files (some "s.toml") settings files none .unset loaded .unset (fun _ _ => rfl)
    (.inl (.inl rfl)) (.inl (.inr (by simp [words])))
  obtain ⟨_, ends⟩ := fails files "t.toml"
  exact ⟨accepted, ⟨settings, loaded, strict⟩, same, renamed none nofun, broken, (ends broken).1⟩

end DocQuery.Command
