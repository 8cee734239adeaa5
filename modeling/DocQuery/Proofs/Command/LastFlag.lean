import DocQuery.Proofs.Command.Flags
import DocQuery.Proofs.Command.Words

/-!
# The last strictness flag

Reading words from the left, each strictness flag takes the other back, and a flag that still stands
may not be given again. So what is collected is what the other words give, marked with the last of the
flags (`collect_of_alike`), and two flags of one kind with none of the other between them are a
conflict (`strictness_of_words`).
-/

namespace DocQuery.Arguments

/-- Marks what is given with the last strictness flag. -/
def Given.withStrictness (g : Given) (last : Option Bool) : Given :=
  { g with strict := last == some true, noStrict := last == some false }

/-- The arguments with the last strictness flag that is given. -/
def withStrictness (arguments : Arguments) (last : Option Bool) : Arguments :=
  { arguments with strict := last == some true, noStrict := last == some false }

/-- The last flag after more flags. One that still stands may not be given again. -/
def lastAfter : Option Bool → List Bool → Except ArgumentError (Option Bool)
  | last, [] => .ok last
  | last, b :: rest => if last = some b then .error .conflict else lastAfter (some b) rest

theorem lastAfter_of_isChain {last : Option Bool} {bs : List Bool}
    (alternates : (last.toList ++ bs).IsChain (· ≠ ·)) :
    lastAfter last bs = .ok (bs.getLast?.or last) := by
  induction bs generalizing last with
  | nil => rfl
  | cons b rest ih =>
    have next : (b :: rest).getLast?.or last = rest.getLast?.or (some b) := by
      rw [List.getLast?_cons]
      cases rest.getLast? <;> rfl
    rw [next, lastAfter]
    cases last with
    | none => exact ih alternates
    | some c =>
      obtain ⟨apart, others⟩ := List.isChain_cons_cons.mp alternates
      rw [if_neg (mt Option.some.inj apart)]
      exact ih others

theorem lastAfter_of_not_isChain {last : Option Bool} {bs : List Bool}
    (repeats : ¬(last.toList ++ bs).IsChain (· ≠ ·)) : lastAfter last bs = .error .conflict := by
  induction bs generalizing last with
  | nil => cases last <;> simp at repeats
  | cons b rest ih =>
    rw [lastAfter]
    split
    · rfl
    · rename_i apart
      cases last with
      | none => exact ih repeats
      | some c =>
        exact ih fun others => repeats (List.isChain_cons_cons.mpr ⟨mt (congrArg some) apart, others⟩)

variable {files : Files} {environment : Environment} {g g' : Given} {words others : List String}
variable {arguments : Arguments}

/-! ### Steps -/

theorem setValue_withStrictness (option : ValueOption) (text : String) (last : Option Bool) :
    (g.withStrictness last).setValue files option text =
      (g.setValue files option text).map (·.withStrictness last) := by
  obtain ⟨query, queryFile, config, input, logLevel, _, _, _⟩ := g
  cases option <;> unfold Given.setValue
  case query => cases query <;> rfl
  case logLevel => cases logLevel <;> rfl
  case config => cases config <;> cases text.isEmpty <;> rfl
  case queryFile => cases queryFile <;> cases checkFile files text <;> rfl
  case input => cases input <;> cases checkFile files text <;> rfl

theorem takeUp_withStrictness (pending : Option Pending) (last : Option Bool) :
    takeUp files (g.withStrictness last) pending =
      (takeUp files g pending).map (·.withStrictness last) := by
  match pending with
  | none => rfl
  | some ⟨_, none⟩ => rfl
  | some ⟨option, some text⟩ => exact setValue_withStrictness option text last

theorem setFlag_withStrictness {flag : Flag} (silent : (Token.flag flag).strictness? = none)
    (last : Option Bool) :
    (g.withStrictness last).setFlag flag = (g.setFlag flag).map (·.withStrictness last) := by
  cases flag with
  | count =>
    obtain ⟨_, _, _, _, _, count, _, _⟩ := g
    cases count <;> rfl
  | help => rfl
  | version => rfl
  | strict => cases silent
  | noStrict => cases silent

/-- A strictness flag only takes the place of the last one. -/
theorem setFlag_strictness {flag : Flag} {b : Bool} (asks : (Token.flag flag).strictness? = some b)
    (last : Option Bool) :
    (g.withStrictness last).setFlag flag =
      if last = some b then .error .conflict else .ok (g.withStrictness (some b)) := by
  cases flag with
  | strict | noStrict =>
    obtain rfl := Option.some.inj asks
    unfold Given.setFlag
    simp only [Given.withStrictness, beq_iff_eq]
    rfl
  | _ => cases asks

theorem ok_of_withStrictness {step : Option Bool → Except ArgumentError Given}
    {result : Except ArgumentError Given} {last : Option Bool}
    (steady : ∀ last, step last = result.map (·.withStrictness last)) (done : step last = .ok g') :
    ∃ g : Given, g' = g.withStrictness last ∧ ∀ last, step last = .ok (g.withStrictness last) := by
  rw [steady] at done
  cases result with
  | error e => cases done
  | ok g => exact ⟨g, (Except.ok.inj done).symm, steady⟩

/-- A step that leaves the strictness flags alone comes before the next one whichever flag is the last. -/
theorem next_of_withStrictness {step : Option Bool → Except ArgumentError Given}
    {next : Given → Except ArgumentError Given} {result : Except ArgumentError Given}
    {last : Option Bool} (steady : ∀ last, step last = result.map (·.withStrictness last))
    (done : (match step last with
      | .error e => .error e
      | .ok g => next g : Except ArgumentError Given) = .ok g') :
    ∃ g : Given, next (g.withStrictness last) = .ok g' ∧
      ∀ last, step last = .ok (g.withStrictness last) := by
  obtain ⟨_, stepped, done⟩ := bind_ok done
  obtain ⟨g, rfl, steps⟩ := ok_of_withStrictness steady stepped
  exact ⟨g, done, steps⟩

/-! ### Collecting -/

/-- If tokens are accepted, so is every alike list but for its strictness flags, and it gives the same
but for the last of them. -/
theorem collect_of_alike {tokens others : List Token} (alike : List.Forall₂ Alike tokens others)
    {pending : Option Pending} {last : Option Bool}
    (collected : collect files (g.withStrictness last) pending tokens = .ok g') (last' : Option Bool) :
    collect files (g.withStrictness last') pending others =
      (lastAfter last' (others.filterMap Token.strictness?)).map g'.withStrictness := by
  -- Which flag is the last so far may differ in the two readings, so neither is fixed.
  induction alike generalizing g pending last last' with
  | nil =>
    obtain ⟨g₁, rfl, taken⟩ := ok_of_withStrictness (takeUp_withStrictness pending) collected
    exact taken last'
  | @cons token other tokens others alike _ ih =>
    cases alike with
    | same silent =>
      rw [List.filterMap_cons_none silent]
      cases token with
      | problem => cases collected
      | plain text =>
        match pending with
        | none => cases collected
        | some ⟨_, some _⟩ => cases collected
        | some ⟨option, none⟩ => exact ih collected last'
      | expects option =>
        obtain ⟨g₁, collected, takes⟩ := next_of_withStrictness (takeUp_withStrictness pending) collected
        rw [collect, takes]
        exact ih collected last'
      | value option text =>
        obtain ⟨g₁, collected, takes⟩ := next_of_withStrictness (takeUp_withStrictness pending) collected
        obtain ⟨g₂, collected, sets⟩ :=
          next_of_withStrictness (setValue_withStrictness option text) collected
        simp only [collect, takes, sets]
        exact ih collected last'
      | flag flag =>
        obtain ⟨g₁, collected, takes⟩ := next_of_withStrictness (takeUp_withStrictness pending) collected
        obtain ⟨g₂, collected, sets⟩ := next_of_withStrictness (setFlag_withStrictness silent) collected
        simp only [collect, takes, sets]
        exact ih collected last'
    | flags asks asks' =>
      obtain ⟨flag, rfl⟩ := flag_of_strictness? asks
      obtain ⟨flag', rfl⟩ := flag_of_strictness? asks'
      obtain ⟨g₁, collected, takes⟩ := next_of_withStrictness (takeUp_withStrictness pending) collected
      obtain ⟨_, set, collected⟩ := bind_ok collected
      rw [setFlag_strictness asks] at set
      split at set
      · cases set
      · obtain rfl := Except.ok.inj set
        simp only [collect, takes, setFlag_strictness asks', List.filterMap_cons_some asks', lastAfter]
        split_ifs
        · rfl
        · exact ih collected _

theorem no_problem_of_collect {tokens : List Token} {pending : Option Pending}
    (collected : collect files g pending tokens = .ok g') (e : ArgumentError) :
    Token.problem e ∉ tokens := by
  induction tokens generalizing g pending with
  | nil => exact List.not_mem_nil
  | cons token rest ih =>
    rw [List.mem_cons, not_or]
    cases token with
    | problem => cases collected
    | plain text =>
      match pending with
      | none => cases collected
      | some ⟨_, some _⟩ => cases collected
      | some ⟨option, none⟩ => exact ⟨nofun, ih collected⟩
    | expects =>
      obtain ⟨_, _, collected⟩ := bind_ok collected
      exact ⟨nofun, ih collected⟩
    | value | flag =>
      obtain ⟨_, _, collected⟩ := bind_ok collected
      obtain ⟨_, _, collected⟩ := bind_ok collected
      exact ⟨nofun, ih collected⟩

/-! ### Arguments -/

theorem complete_withStrictness (last : Option Bool) :
    complete environment (g.withStrictness last) =
      (complete environment g).map (withStrictness · last) := by
  unfold complete
  rw [apply_ite (Except.map _), apply_ite (Except.map _)]
  rfl

theorem strictOverride_withStrictness (last : Option Bool) :
    (arguments.withStrictness last).strictOverride = last := by
  match last with
  | none => rfl
  | some true => rfl
  | some false => rfl

/-- Words that are accepted decide about all words that are the same but for which strictness flags
stand where there are some. -/
theorem parse_of_same (accepted : parse files environment words = .ok arguments)
    (same : SameButStrictness words others) :
    parse files environment others =
      (lastAfter none (askedStrictness others)).map arguments.withStrictness := by
  obtain ⟨g, collected, completed⟩ := of_parse accepted
  have alike := alike_tokens same
  have sound : ∀ e, Token.problem e ∉ tokens others := fun e member =>
    no_problem_of_collect collected e (problem_of_alike alike member)
  have unmarked : collect files (Given.nothing.withStrictness none) none (tokens words) = .ok g := collected
  have collects : collect files .nothing none (tokens others) = _ := collect_of_alike alike unmarked none
  rw [parse, collects, strictness_tokens sound]
  cases lastAfter none (askedStrictness others) with
  | error e => rfl
  | ok last =>
    show complete environment (g.withStrictness last) = _
    rw [complete_withStrictness, completed]
    rfl

theorem parse_of_repeats (accepted : parse files environment words = .ok arguments)
    (same : SameButStrictness words others) (repeats : Repeats others) :
    parse files environment others = .error .conflict := by
  rw [parse_of_same accepted same, lastAfter_of_not_isChain ((repeats_iff others).mp repeats)]
  rfl

theorem parse_of_not_repeats (accepted : parse files environment words = .ok arguments)
    (same : SameButStrictness words others) (alternates : ¬Repeats others) :
    parse files environment others =
      .ok (arguments.withStrictness (askedStrictness others).getLast?) := by
  have chain := not_not.mp (mt (repeats_iff others).mpr alternates)
  rw [parse_of_same accepted same, lastAfter_of_isChain chain, Option.or_none]
  rfl

theorem marked_of_parse (accepted : parse files environment words = .ok arguments) :
    arguments = arguments.withStrictness (askedStrictness words).getLast? := by
  have same : SameButStrictness words words := List.forall₂_same.mpr fun _ _ => .inl rfl
  have alternates : ¬Repeats words := fun repeats =>
    nomatch accepted.symm.trans (parse_of_repeats accepted same repeats)
  exact Except.ok.inj (accepted.symm.trans (parse_of_not_repeats accepted same alternates))

theorem strictOverride_of_parse (accepted : parse files environment words = .ok arguments) :
    arguments.strictOverride = (askedStrictness words).getLast? :=
  (congrArg strictOverride (marked_of_parse accepted)).trans (strictOverride_withStrictness _)

end DocQuery.Arguments
