import DocQuery.Command.Arguments

/-!
# What words give

`given?` reads the value of an option off the tokens of all words, wherever it stands. What is
collected from words that are accepted holds exactly these values (`value?_collect`), and the query
of the arguments is that of the words or else of the environment (`query_of_words`).
-/

namespace DocQuery.Arguments

/-- The first value that tokens give an option, in the option's own word or in the next. -/
def given? (option : ValueOption) : List Token → Option String
  | [] => none
  | .value other text :: rest => if other = option then some text else given? option rest
  | .expects other :: .plain text :: rest =>
    if other = option then some text else given? option rest
  | _ :: rest => given? option rest

def Given.value? (g : Given) : ValueOption → Option String
  | .query => g.query
  | .queryFile => g.queryFile
  | .config => g.config
  | .input => g.input
  | .logLevel => g.logLevel

/-- The tokens of an option that is not taken up yet. -/
def untaken : Option Pending → List Token
  | none => []
  | some ⟨option, none⟩ => [.expects option]
  | some ⟨option, some text⟩ => [.value option text]

variable {files : Files} {environment : Environment} {g g' : Given} {words : List String}
variable {arguments : Arguments} {e : ArgumentError}

theorem bind_ok {result : Except ArgumentError Given} {next : Given → Except ArgumentError Given}
    (done : (match result with
      | .error e => .error e
      | .ok g => next g : Except ArgumentError Given) = .ok g') :
    ∃ g, result = .ok g ∧ next g = .ok g' := by
  cases result with
  | error e => cases done
  | ok g => exact ⟨g, rfl, done⟩

/-! ### Steps -/

theorem value?_setValue {option : ValueOption} {text : String}
    (set : g.setValue files option text = .ok g') :
    g.value? option = none ∧
      ∀ other, g'.value? other = if option = other then some text else g.value? other := by
  cases option <;> unfold Given.setValue at set <;> dsimp only at set <;> split at set
  case query.isFalse fresh | logLevel.isFalse fresh =>
    obtain rfl := Except.ok.inj set
    refine ⟨Option.not_isSome_iff_eq_none.mp fresh, fun other => ?_⟩
    cases other <;> rfl
  case config.isFalse fresh | queryFile.isFalse fresh | input.isFalse fresh =>
    split at set
    · cases set
    · obtain rfl := Except.ok.inj set
      refine ⟨Option.not_isSome_iff_eq_none.mp fresh, fun other => ?_⟩
      cases other <;> rfl
  all_goals cases set

theorem value?_setFlag {flag : Flag} (set : g.setFlag flag = .ok g') (option : ValueOption) :
    g'.value? option = g.value? option := by
  cases flag <;> unfold Given.setFlag at set <;> dsimp only at set
  case help => cases set
  case version => cases set
  all_goals
    split at set
    · cases set
    · obtain rfl := Except.ok.inj set
      cases option <;> rfl

/-- Taking an option up moves its value from the tokens to what is given. -/
theorem value?_takeUp {pending : Option Pending} (taken : takeUp files g pending = .ok g')
    (option : ValueOption) (tokens : List Token) :
    (g'.value? option).or (given? option tokens) =
      (g.value? option).or (given? option (untaken pending ++ tokens)) := by
  match pending with
  | none =>
    obtain rfl := Except.ok.inj taken
    rfl
  | some ⟨_, none⟩ => cases taken
  | some ⟨other, some text⟩ =>
    obtain ⟨fresh, set⟩ := value?_setValue taken
    rw [set]
    show _ = (g.value? option).or (if other = option then some text else given? option tokens)
    split
    · rename_i same
      subst same
      rw [fresh]
      rfl
    · rfl

/-! ### Words -/

theorem value?_collect {pending : Option Pending} {tokens : List Token}
    (collected : collect files g pending tokens = .ok g') (option : ValueOption) :
    g'.value? option = (g.value? option).or (given? option (untaken pending ++ tokens)) := by
  induction tokens generalizing g pending with
  | nil =>
    have taken := value?_takeUp collected option []
    rwa [given?, Option.or_none] at taken
  | cons token rest ih =>
    cases token with
    | problem => cases collected
    | plain text =>
      match pending with
      | none => cases collected
      | some ⟨_, some _⟩ => cases collected
      | some ⟨other, none⟩ => exact ih collected
    | expects other =>
      obtain ⟨g₁, taken, collected⟩ := bind_ok collected
      rw [← value?_takeUp taken]
      exact ih collected
    | value other text =>
      obtain ⟨g₁, taken, collected⟩ := bind_ok collected
      obtain ⟨g₂, set, collected⟩ := bind_ok collected
      have here : takeUp files g₁ (some ⟨other, some text⟩) = .ok g₂ := set
      rw [← value?_takeUp taken, ih collected]
      exact value?_takeUp here option rest
    | flag flag =>
      obtain ⟨g₁, taken, collected⟩ := bind_ok collected
      obtain ⟨g₂, set, collected⟩ := bind_ok collected
      rw [← value?_takeUp taken, ih collected, value?_setFlag set]
      rfl

theorem value?_of_words (collected : collect files .nothing none (tokens words) = .ok g)
    (option : ValueOption) : g.value? option = given? option (tokens words) := by
  rw [value?_collect collected option]
  cases option <;> rfl

/-! ### Arguments -/

theorem complete_error_iff :
    complete environment g = .error e ↔
      (g.config.isNone ∧ environment.config = some "") ∧ e = .invalidValue ∨
        ¬(g.config.isNone ∧ environment.config = some "") ∧
          (g.query.isSome ∧ g.queryFile.isSome) ∧ e = .conflict := by
  unfold complete
  by_cases empty : g.config.isNone ∧ environment.config = some ""
  · rw [if_pos empty]
    constructor
    · rintro ⟨⟩
      exact .inl ⟨empty, rfl⟩
    · rintro (⟨_, rfl⟩ | ⟨filled, _⟩)
      · rfl
      · exact absurd empty filled
  · rw [if_neg empty]
    by_cases both : g.query.isSome ∧ g.queryFile.isSome
    · rw [if_pos both]
      constructor
      · rintro ⟨⟩
        exact .inr ⟨empty, both, rfl⟩
      · rintro (⟨found, _⟩ | ⟨_, _, rfl⟩)
        · exact absurd found empty
        · rfl
    · rw [if_neg both]
      refine iff_of_false nofun ?_
      rintro (⟨found, _⟩ | ⟨_, found, _⟩)
      · exact empty found
      · exact both found

theorem parse_error_iff :
    parse files environment words = .error e ↔
      collect files .nothing none (tokens words) = .error e ∨
        ∃ g, collect files .nothing none (tokens words) = .ok g ∧ complete environment g = .error e := by
  unfold parse
  cases collect files .nothing none (tokens words) with
  | error cause => simp
  | ok g => simp

theorem of_parse (accepted : parse files environment words = .ok arguments) :
    ∃ g, collect files .nothing none (tokens words) = .ok g ∧ complete environment g = .ok arguments := by
  unfold parse at accepted
  split at accepted
  · cases accepted
  · rename_i g collected
    exact ⟨g, collected, accepted⟩

/-- Which query and which query file accepted arguments have. The words never give both. -/
theorem query_of_words (accepted : parse files environment words = .ok arguments) :
    ¬((given? .query (tokens words)).isSome ∧ (given? .queryFile (tokens words)).isSome) ∧
      arguments.query = (given? .query (tokens words)).or environment.query ∧
      arguments.queryFromEnvironment =
        ((given? .query (tokens words)).isNone && environment.query.isSome) ∧
      arguments.queryFile = given? .queryFile (tokens words) := by
  obtain ⟨g, collected, accepted⟩ := of_parse accepted
  have query : g.query = _ := value?_of_words collected .query
  have queryFile : g.queryFile = _ := value?_of_words collected .queryFile
  unfold complete at accepted
  split at accepted
  · cases accepted
  · split at accepted
    · cases accepted
    · rename_i apart
      obtain rfl := Except.ok.inj accepted
      rw [← query, ← queryFile]
      refine ⟨apart, ?_, rfl, rfl⟩
      cases g.query <;> rfl

/-- The environment names the settings file where the words name none, and nothing else hangs on that. -/
theorem parse_config {config : Option String}
    (accepted : parse files environment words = .ok arguments) (named : config ≠ some "") :
    parse files { environment with config := config } words =
      .ok { arguments with config := (given? .config (tokens words)).or config } := by
  obtain ⟨g, collected, accepted⟩ := of_parse accepted
  have fromWords : g.config = _ := value?_of_words collected .config
  have completed : complete { environment with config := config } g =
      .ok { arguments with config := g.config.or config } := by
    unfold complete at accepted ⊢
    rw [if_neg fun ⟨_, empty⟩ => named empty]
    split at accepted
    · cases accepted
    · split at accepted
      · cases accepted
      · rename_i apart
        obtain rfl := Except.ok.inj accepted
        rw [if_neg apart]
        cases g.config <;> rfl
  rw [parse, collected, ← fromWords]
  exact completed

end DocQuery.Arguments
