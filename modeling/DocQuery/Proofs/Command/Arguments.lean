import DocQuery.Command.Arguments

/-!
# An input among the arguments

Words that name no input are accepted with `--input=` in front of them too, and then they mean the
same but for the input (`parse_input`).
-/

namespace DocQuery.Arguments

variable {files : Files} {environment : Environment} {g : Given} {path : String}

def Given.withInput (g : Given) (path : String) : Given := { g with input := some path }

/-- What comes out without an input came in without one, and comes out the same but for an input that
comes in. -/
def CarriesInput (path : String) (f : Given → Except ArgumentError Given) : Prop :=
  ∀ g g', f g = .ok g' → g'.input = none →
    g.input = none ∧ f (g.withInput path) = .ok (g'.withInput path)

/-! ### Options -/

theorem carriesInput_setValue (option : ValueOption) (text : String) :
    CarriesInput path fun g => g.setValue files option text := by
  intro g g' set free
  cases option <;> unfold Given.setValue at set ⊢ <;> dsimp only at set ⊢ <;> split at set
  case query.isFalse fresh =>
    obtain rfl := Except.ok.inj set
    exact ⟨free, if_neg fresh⟩
  case logLevel.isFalse fresh =>
    obtain rfl := Except.ok.inj set
    exact ⟨free, if_neg fresh⟩
  case config.isFalse fresh =>
    split at set
    · cases set
    · rename_i filled
      obtain rfl := Except.ok.inj set
      exact ⟨free, (if_neg fresh).trans (if_neg filled)⟩
  case queryFile.isFalse fresh =>
    split at set
    · cases set
    · obtain rfl := Except.ok.inj set
      exact ⟨free, if_neg fresh⟩
  case input.isFalse fresh =>
    split at set
    · cases set
    · obtain rfl := Except.ok.inj set
      cases free
  all_goals cases set

theorem carriesInput_setFlag (flag : Flag) : CarriesInput path fun g => g.setFlag flag := by
  intro g g' set free
  cases flag <;> unfold Given.setFlag at set ⊢ <;> dsimp only at set ⊢
  case help => cases set
  case version => cases set
  all_goals
    split at set
    · cases set
    · rename_i fresh
      obtain rfl := Except.ok.inj set
      exact ⟨free, if_neg fresh⟩

theorem carriesInput_takeUp (pending : Option Pending) :
    CarriesInput path fun g => takeUp files g pending := by
  intro g g' taken free
  match pending with
  | none =>
    obtain rfl := Except.ok.inj taken
    exact ⟨free, rfl⟩
  | some ⟨_, none⟩ => cases taken
  | some ⟨option, some text⟩ => exact carriesInput_setValue option text g g' taken free

theorem CarriesInput.bind {f h : Given → Except ArgumentError Given} (first : CarriesInput path f)
    (second : CarriesInput path h) :
    CarriesInput path fun g =>
      match f g with
      | .error e => .error e
      | .ok g => h g := by
  intro g g' both free
  dsimp only at both ⊢
  split at both
  · cases both
  · rename_i between done
    obtain ⟨unset, later⟩ := second between g' both free
    obtain ⟨start, before⟩ := first g between done unset
    exact ⟨start, by rw [before]; exact later⟩

/-! ### Words -/

/-- What is collected from tokens that name no input is the same with an input given before. -/
theorem carriesInput_collect (pending : Option Pending) (tokens : List Token) :
    CarriesInput path fun g => collect files g pending tokens := by
  induction tokens generalizing pending with
  | nil => exact carriesInput_takeUp pending
  | cons token rest ih =>
    cases token with
    | problem => exact fun _ _ collected => nomatch collected
    | plain text =>
      match pending with
      | none => exact fun _ _ collected => nomatch collected
      | some ⟨_, some _⟩ => exact fun _ _ collected => nomatch collected
      | some ⟨option, none⟩ => exact ih (some ⟨option, some text⟩)
    | expects option => exact (carriesInput_takeUp pending).bind (ih _)
    | value option text =>
      exact (carriesInput_takeUp pending).bind ((carriesInput_setValue option text).bind (ih _))
    | flag flag => exact (carriesInput_takeUp pending).bind ((carriesInput_setFlag flag).bind (ih _))

theorem tokens_input (path : String) (words : List String) :
    tokens (("--input=" ++ path) :: words) = .value .input path :: tokens words := by
  have letters : ("--input=" ++ path).toList =
      '-' :: '-' :: 'i' :: 'n' :: 'p' :: 'u' :: 't' :: '=' :: path.toList := by
    rw [String.toList_append]
    rfl
  have token : longToken ('i' :: 'n' :: 'p' :: 'u' :: 't' :: '=' :: path.toList) =
      .value .input (String.ofList path.toList) := rfl
  rw [tokens, letters]
  simp only [token, String.ofList_toList]

theorem complete_withInput (path : String) {arguments : Arguments}
    (completed : complete environment g = .ok arguments) :
    g.input = arguments.input ∧
      complete environment (g.withInput path) = .ok { arguments with input := some path } := by
  unfold complete at completed ⊢
  split at completed
  · cases completed
  · rename_i filled
    split at completed
    · cases completed
    · rename_i single
      obtain rfl := Except.ok.inj completed
      exact ⟨rfl, (if_neg filled).trans (if_neg single)⟩

theorem parse_input {words : List String} {arguments : Arguments} {content : List UInt8}
    (parsed : parse files environment words = .ok arguments) (free : arguments.input = none)
    (found : files path = some (.file content)) :
    parse files environment (("--input=" ++ path) :: words) =
      .ok { arguments with input := some path } := by
  unfold parse at parsed ⊢
  split at parsed
  · cases parsed
  · rename_i g collected
    obtain ⟨unset, completed⟩ := complete_withInput path parsed
    have collected : collect files (Given.nothing.withInput path) none (tokens words) =
        .ok (g.withInput path) := (carriesInput_collect none _ _ g collected (unset.trans free)).2
    have set : Given.nothing.setValue files .input path = .ok (Given.nothing.withInput path) := by
      simp only [Given.setValue, checkFile, found]
      rfl
    rw [tokens_input, collect]
    simp only [takeUp, set, collected, completed]

end DocQuery.Arguments
