import DocQuery.Command.Run
import DocQuery.Proofs.Command.Words
import DocQuery.Proofs.Json.Reading

/-!
# Which query is run

The sources of a query stand in a fixed order: the words' query, the words' query file, the
environment, the settings. The first that is there decides alone, also when it is broken
(`query_precedence`).
-/

namespace DocQuery.Command

open Arguments (collect complete given? parse tokens)

inductive QuerySource where
  | option (text : String)
  | file (path : String)
  | environment (text : String)
  | settings (query : Json)

namespace QuerySource

/-- What a source gives by itself. -/
def read (files : Files) : QuerySource → Except Error Json
  | .option text => (Json.parse text).mapError .invalidQueryOption
  | .file path =>
    match files.text? path with
    | none => .error (.unreadableQueryFile path)
    | some text => (Json.parse text).mapError (.invalidQueryFile path)
  | .environment text => (Json.parse text).mapError .invalidQueryVariable
  | .settings query => .ok query

/-- A source that cannot be read, or whose text is no JSON. -/
inductive Broken (files : Files) : QuerySource → Prop
  | option {text : String} {cause : ReadError} : Json.parse text = .error cause →
      Broken files (.option text)
  | unreadable {path : String} : files.text? path = none → Broken files (.file path)
  | file {path text : String} {cause : ReadError} : files.text? path = some text →
      Json.parse text = .error cause → Broken files (.file path)
  | environment {text : String} {cause : ReadError} : Json.parse text = .error cause →
      Broken files (.environment text)

end QuerySource

/-- The sources that are there, in their order. -/
def sources (words : List String) (environment : Environment) (settings : Settings) :
    List QuerySource :=
  ((given? .query (tokens words)).map QuerySource.option).toList ++
    ((given? .queryFile (tokens words)).map QuerySource.file).toList ++
      (environment.query.map QuerySource.environment).toList ++
        (settings.query.map QuerySource.settings).toList

variable {seen files : Files} {environment : Environment} {words : List String}
variable {arguments : Arguments} {settings : Settings} {source first : QuerySource}
variable {lower : List QuerySource}

/-! ### Single sources -/

theorem mapError_eq_error_iff {ε δ α : Type} {error : ε → δ} {result : Except ε α} {e : δ} :
    result.mapError error = .error e ↔ ∃ cause, result = .error cause ∧ error cause = e := by
  cases result with
  | ok value => exact iff_of_false nofun nofun
  | error cause =>
    constructor
    · intro failed
      exact ⟨cause, rfl, Except.error.inj failed⟩
    · rintro ⟨_, ⟨⟩, rfl⟩
      rfl

theorem broken_of_read {e : Error} (failed : source.read files = .error e) :
    source.Broken files ∧ e ≠ .noQuery := by
  cases source with
  | option text =>
    obtain ⟨cause, parsed, rfl⟩ := mapError_eq_error_iff.mp failed
    exact ⟨.option parsed, nofun⟩
  | file path =>
    rw [QuerySource.read] at failed
    cases found : files.text? path with
    | none =>
      rw [found] at failed
      obtain rfl := Except.error.inj failed
      exact ⟨.unreadable found, nofun⟩
    | some text =>
      rw [found] at failed
      obtain ⟨cause, parsed, rfl⟩ := mapError_eq_error_iff.mp failed
      exact ⟨.file found parsed, nofun⟩
  | environment text =>
    obtain ⟨cause, parsed, rfl⟩ := mapError_eq_error_iff.mp failed
    exact ⟨.environment parsed, nofun⟩
  | settings query => cases failed

theorem read_fails_iff : (∃ e, source.read files = .error e) ↔ source.Broken files := by
  constructor
  · rintro ⟨e, failed⟩
    exact (broken_of_read failed).1
  · rintro (parsed | missing | ⟨found, parsed⟩ | parsed)
    · exact ⟨_, mapError_eq_error_iff.mpr ⟨_, parsed, rfl⟩⟩
    · exact ⟨_, by rw [QuerySource.read, missing]⟩
    · rw [QuerySource.read, found]
      exact ⟨_, mapError_eq_error_iff.mpr ⟨_, parsed, rfl⟩⟩
    · exact ⟨_, mapError_eq_error_iff.mpr ⟨_, parsed, rfl⟩⟩

/-- A source depends on no file but the one that it names. -/
theorem read_congr {others : Files} (same : ∀ path, source = .file path → others path = files path) :
    source.read others = source.read files := by
  cases source with
  | file path => simp only [QuerySource.read, Files.text?, same path rfl]
  | _ => rfl

/-! ### The first source -/

theorem resolveQuery_eq (accepted : parse seen environment words = .ok arguments) :
    resolveQuery files arguments settings =
      match sources words environment settings with
      | [] => .error .noQuery
      | first :: _ => first.read files := by
  obtain ⟨apart, query, marked, queryFile⟩ := Arguments.query_of_words accepted
  unfold resolveQuery sources
  rw [query, marked, queryFile]
  cases given? .query (tokens words) with
  | some text => cases environment.query <;> rfl
  | none =>
    cases given? .queryFile (tokens words) with
    | some path => cases environment.query <;> rfl
    | none =>
      cases environment.query with
      | some text => rfl
      | none => cases settings.query <;> rfl

theorem resolveQuery_eq_noQuery_iff (accepted : parse seen environment words = .ok arguments) :
    resolveQuery files arguments settings = .error .noQuery ↔
      sources words environment settings = [] := by
  rw [resolveQuery_eq accepted]
  cases sources words environment settings with
  | nil => exact iff_of_true rfl rfl
  | cons first lower => exact iff_of_false (fun failed => (broken_of_read failed).2 rfl) nofun

theorem resolveQuery_of_sources (accepted : parse seen environment words = .ok arguments)
    (present : sources words environment settings = first :: lower) :
    resolveQuery files arguments settings = first.read files := by
  rw [resolveQuery_eq accepted, present]

/-! ### Conflicts -/

theorem parse_conflict_iff {g : Arguments.Given}
    (collected : collect seen .nothing none (tokens words) = .ok g)
    (filled : environment.config ≠ some "" ∨ (given? .config (tokens words)).isSome) :
    parse seen environment words = .error .conflict ↔
      (given? .query (tokens words)).isSome ∧ (given? .queryFile (tokens words)).isSome := by
  have query : g.query = _ := Arguments.value?_of_words collected .query
  have queryFile : g.queryFile = _ := Arguments.value?_of_words collected .queryFile
  have config : g.config = _ := Arguments.value?_of_words collected .config
  have named : ¬(g.config.isNone ∧ environment.config = some "") := by
    rw [config]
    rintro ⟨free, empty⟩
    rcases filled with filled | given
    · exact filled empty
    · rw [Option.isNone_iff_eq_none] at free
      rw [free] at given
      cases given
  have completed : parse seen environment words = complete environment g := by
    rw [parse, collected]
  rw [completed, Arguments.complete_error_iff, query, queryFile]
  constructor
  · rintro (⟨empty, _⟩ | ⟨_, both, _⟩)
    · exact absurd empty named
    · exact both
  · intro both
    exact .inr ⟨named, both, rfl⟩

/-- A query in the environment changes no error of the arguments, and makes none. -/
theorem parse_error_congr (other : Option String) (e : ArgumentError) :
    parse seen { environment with query := other } words = .error e ↔
      parse seen environment words = .error e := by
  simp only [Arguments.parse_error_iff, Arguments.complete_error_iff]

/-- Words that can be read are refused as conflicting exactly if they give a query and a query file; a
query in the environment makes no error. Of accepted arguments the query is that of the first source
that is there: its own query or its own error, and `noQuery` only if there is none. Whatever is changed
below that source, in the words, the environment, the settings or the files, the result stays. -/
theorem query_precedence (seen : Files) (environment : Environment) (words : List String) :
    ((∃ g, collect seen .nothing none (tokens words) = .ok g) →
        (environment.config ≠ some "" ∨ (given? .config (tokens words)).isSome) →
          (parse seen environment words = .error .conflict ↔
            (given? .query (tokens words)).isSome ∧ (given? .queryFile (tokens words)).isSome)) ∧
      (∀ other e, parse seen { environment with query := other } words = .error e ↔
        parse seen environment words = .error e) ∧
      ∀ arguments, parse seen environment words = .ok arguments →
        ¬((given? .query (tokens words)).isSome ∧ (given? .queryFile (tokens words)).isSome) ∧
          ∀ (files : Files) (settings : Settings),
            (resolveQuery files arguments settings = .error .noQuery ↔
                sources words environment settings = []) ∧
              ∀ first lower, sources words environment settings = first :: lower →
                resolveQuery files arguments settings = first.read files ∧
                  ((∃ e, resolveQuery files arguments settings = .error e) ↔ first.Broken files) ∧
                  ∀ seen' environment' words' arguments' files' settings' lower',
                    parse seen' environment' words' = .ok arguments' →
                      sources words' environment' settings' = first :: lower' →
                        (∀ path, first = .file path → files' path = files path) →
                          resolveQuery files' arguments' settings' =
                            resolveQuery files arguments settings := by
  refine ⟨fun ⟨g, collected⟩ filled => parse_conflict_iff collected filled, parse_error_congr,
    fun arguments accepted => ⟨(Arguments.query_of_words accepted).1, fun files settings =>
      ⟨resolveQuery_eq_noQuery_iff accepted, fun first lower present => ?_⟩⟩⟩
  have resolved : resolveQuery files arguments settings = first.read files :=
    resolveQuery_of_sources accepted present
  rw [resolved]
  refine ⟨rfl, read_fails_iff, ?_⟩
  intro seen' environment' words' arguments' files' settings' lower' accepted' present' same
  rw [resolveQuery_of_sources accepted' present', read_congr same]

/-- A query file before a query of the environment that is no JSON, and the same file without it. With
a query in the words as well they conflict. -/
theorem query_precedence_file :
    let files : Files := fun path =>
      if path = "q.json" then some (.file (bytesOf "\x7b\x7d")) else none
    let words := ["--query-file=q.json"]
    let both := ["--query=\x7b", "--query-file", "q.json"]
    let environment : Environment := ⟨some "\x7b", none, none, none⟩
    let bare : Environment := ⟨none, none, none, none⟩
    let settings : Settings := ⟨some .null, true⟩
    let arguments : Arguments := ⟨some "\x7b", true, some "q.json", none, none, false, false, false, "warn"⟩
    let others : Arguments := ⟨none, false, some "q.json", none, none, false, false, false, "warn"⟩
    parse files environment words = .ok arguments ∧ parse files bare words = .ok others ∧
      resolveQuery files arguments settings = .ok (.object []) ∧
      resolveQuery files others .unset = .ok (.object []) ∧
      parse files environment both = .error .conflict := by
  intro files words both environment bare settings arguments others
  have accepted : parse files environment words = .ok arguments := rfl
  have accepted' : parse files bare words = .ok others := rfl
  have decoded : files.text? "q.json" = some "\x7b\x7d" := decode?_eq_some_iff.mpr rfl
  have parsed : Json.parse "\x7b\x7d" = .ok (.object []) := by
    have written : (Json.object []).text = "\x7b\x7d" := by decide +kernel
    have settled : (Json.object []).Settled := by simp [Json.Settled, Json.SettledEntries]
    exact written ▸ Json.parse_text settled rfl (by decide)
  have read : (QuerySource.file "q.json").read files = .ok (.object []) := by
    rw [QuerySource.read, decoded]
    show (Json.parse "\x7b\x7d").mapError (Error.invalidQueryFile "q.json") = .ok (.object [])
    rw [parsed]
    rfl
  obtain ⟨_, _, resolves⟩ := query_precedence files environment words
  obtain ⟨_, resolves⟩ := resolves arguments accepted
  obtain ⟨_, decides⟩ := resolves files settings
  obtain ⟨resolved, _, stays⟩ := decides (.file "q.json") _ rfl
  have same := stays files bare words others files .unset [] accepted' rfl fun _ _ => rfl
  obtain ⟨conflict, _⟩ := query_precedence files environment both
  exact ⟨accepted, accepted', resolved.trans read, same.trans (resolved.trans read),
    (conflict ⟨_, rfl⟩ (.inl (by simp [environment]))).mpr ⟨rfl, rfl⟩⟩

end DocQuery.Command
