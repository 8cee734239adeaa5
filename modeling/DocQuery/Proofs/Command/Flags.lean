import DocQuery.Command.Arguments
import DocQuery.Proofs.Json.Tree
import Mathlib.Data.List.Chain
import Mathlib.Data.List.Forall2

/-!
# Strictness flags among words

The strictness flags of words stand among their tokens as they stand among the words
(`strictness_tokens`), and words that are the same but for these flags have tokens that are
(`alike_tokens`). One flag twice, without the other between, is two neighbours that are equal
(`repeats_iff`).
-/

namespace DocQuery.Arguments

/-! ### Flags among words -/

def strictnessWord : Bool → String
  | true => "--strict"
  | false => "--no-strict"

/-- The strictness that a word asks for, if it is a strictness flag. -/
def strictness? (word : String) : Option Bool :=
  if word = strictnessWord true then some true
  else if word = strictnessWord false then some false
  else none

/-- What the strictness flags among words ask for, in their order. -/
def askedStrictness (words : List String) : List Bool := words.filterMap strictness?

/-- A strictness flag stands twice, and the other one does not stand between. -/
def Repeats (words : List String) : Prop :=
  ∃ b before between after,
    words = before ++ strictnessWord b :: (between ++ strictnessWord b :: after) ∧
      strictnessWord (!b) ∉ between

/-- Words that are the same, but for which strictness flag stands where there is one. -/
def SameButStrictness : List String → List String → Prop :=
  List.Forall₂ fun word other => word = other ∨ (strictness? word).isSome ∧ (strictness? other).isSome

def Token.strictness? : Token → Option Bool
  | .flag .strict => some true
  | .flag .noStrict => some false
  | _ => none

/-- Tokens that are the same, or strictness flags both. -/
inductive Alike : Token → Token → Prop
  | same {token : Token} : token.strictness? = none → Alike token token
  | flags {token other : Token} {b c : Bool} : token.strictness? = some b →
      other.strictness? = some c → Alike token other

theorem strictness?_eq_some_iff {word : String} {b : Bool} :
    strictness? word = some b ↔ word = strictnessWord b := by
  unfold strictness?
  split
  · rename_i strict
    subst strict
    cases b <;> simp [strictnessWord]
  · split
    · rename_i lenient
      subst lenient
      cases b <;> simp [strictnessWord]
    · cases b <;> simp [*]

/-- Between two flags of one kind, without the other, there can only be flags of that kind. -/
theorem repeats_iff (words : List String) :
    Repeats words ↔ ¬(askedStrictness words).IsChain (· ≠ ·) := by
  rw [List.isChain_iff_forall_rel_of_append_cons_cons]
  constructor
  · rintro ⟨b, before, between, after, rfl, absent⟩ alternates
    have found : strictness? (strictnessWord b) = some b := strictness?_eq_some_iff.mpr rfl
    have only : ∀ c ∈ askedStrictness between, c = b := by
      intro c member
      obtain ⟨word, here, asks⟩ := List.mem_filterMap.mp member
      obtain rfl := strictness?_eq_some_iff.mp asks
      by_contra other
      rw [Bool.eq_not.mpr other] at here
      exact absent here
    have split : askedStrictness (before ++ strictnessWord b :: (between ++ strictnessWord b :: after)) =
        askedStrictness before ++ b :: (askedStrictness between ++ b :: askedStrictness after) := by
      simp only [askedStrictness, List.filterMap_append, List.filterMap_cons, found]
    -- A flag between the two is of their kind, so the first flag and the next one are equal.
    cases inner : askedStrictness between with
    | nil =>
      rw [inner] at split
      exact alternates split rfl
    | cons c rest =>
      obtain rfl : c = b := only c (inner ▸ List.mem_cons_self)
      rw [inner] at split
      exact alternates split rfl
  · intro repeats
    push Not at repeats
    obtain ⟨b, _, first, last, split, rfl⟩ := repeats
    obtain ⟨before, others, rfl, _, split⟩ := List.filterMap_eq_append_iff.mp split
    obtain ⟨passed, word, others, rfl, _, asks, split⟩ := List.filterMap_eq_cons_iff.mp split
    obtain ⟨between, word', after, rfl, silent, asks', _⟩ := List.filterMap_eq_cons_iff.mp split
    obtain rfl := strictness?_eq_some_iff.mp asks
    obtain rfl := strictness?_eq_some_iff.mp asks'
    refine ⟨b, before ++ passed, between, after, by simp, fun member => ?_⟩
    have found : strictness? (strictnessWord (!b)) = some (!b) := strictness?_eq_some_iff.mpr rfl
    rw [silent _ member] at found
    cases found

variable {words others : List String} {token : Token}

/-! ### Tokens of flags -/

theorem Alike.refl (token : Token) : Alike token token := by
  cases asks : token.strictness? with
  | none => exact .same asks
  | some b => exact .flags asks asks

theorem Alike.problem {e : ArgumentError} (alike : Alike token (.problem e)) : token = .problem e := by
  cases alike with
  | same => rfl
  | flags _ asks => cases asks

theorem flag_of_strictness? {b : Bool} (asks : token.strictness? = some b) :
    ∃ flag, token = .flag flag := by
  cases token with
  | flag flag => exact ⟨flag, rfl⟩
  | _ => cases asks

theorem longOption?_flag {name : String} {b : Bool} {flag : Flag}
    (found : longOption? name = some (.flag flag)) (asks : (Token.flag flag).strictness? = some b) :
    '-' :: '-' :: name.toList = (strictnessWord b).toList := by
  have member := mem_of_lookup found
  cases flag with
  | strict =>
    obtain rfl : true = b := Option.some.inj asks
    obtain rfl : name = "strict" := by simpa using member
    rfl
  | noStrict =>
    obtain rfl : false = b := Option.some.inj asks
    obtain rfl : name = "no-strict" := by simpa using member
    rfl
  | _ => cases asks

theorem strictness?_longToken (long : List Char) (b : Bool) :
    (longToken long).strictness? = some b ↔ '-' :: '-' :: long = (strictnessWord b).toList := by
  constructor
  · intro asks
    unfold longToken at asks
    dsimp only at asks
    split at asks
    case h_5 flag found bare =>
      have whole : long.takeWhile (· != '=') = long := by
        rw [← List.append_nil (List.takeWhile _ long), ← bare, List.takeWhile_append_dropWhile]
      have same := longOption?_flag found asks
      rwa [String.toList_ofList, whole] at same
    all_goals cases asks
  · intro letters
    cases b with
    | true =>
      obtain rfl : long = "strict".toList := (List.cons.inj (List.cons.inj letters).2).2
      rfl
    | false =>
      obtain rfl : long = "no-strict".toList := (List.cons.inj (List.cons.inj letters).2).2
      rfl

theorem strictness?_shortTokens (letters : List Char) :
    (shortTokens letters).filterMap Token.strictness? = [] := by
  induction letters with
  | nil => rfl
  | cons letter rest ih =>
    unfold shortTokens
    split
    case h_2 flag found =>
      have member := mem_of_lookup found
      have silent : (Token.flag flag).strictness? = none := by
        cases flag <;> simp at member <;> rfl
      rw [List.filterMap_cons_none silent, ih]
    all_goals rfl

/-- The tokens of a word. -/
def wordTokens (word : String) : List Token :=
  match word.toList with
  | '-' :: '-' :: long => [longToken long]
  | '-' :: letter :: more => shortTokens (letter :: more)
  | _ => [.plain word]

theorem tokens_cons {word : String} (more : word ≠ "--") (rest : List String) :
    tokens (word :: rest) = wordTokens word ++ tokens rest := by
  rw [tokens, wordTokens]
  split
  · rename_i lone
    exact absurd (String.toList_inj.mp lone) more
  · rename_i letters
    simp only [letters, List.singleton_append]
  · rename_i letters
    simp only [letters]
  · rename_i short
    split
    · exact absurd ‹_› (short _ _)
    · exact absurd ‹_› (short _ _)
    · rfl

theorem strictness_wordTokens (word : String) :
    (wordTokens word).filterMap Token.strictness? = (strictness? word).toList := by
  have asks : ∀ b, strictness? word = some b ↔ word.toList = (strictnessWord b).toList := fun b =>
    strictness?_eq_some_iff.trans String.toList_inj.symm
  unfold wordTokens
  split
  · rename_i long letters
    have same : (longToken long).strictness? = strictness? word := by
      ext b
      rw [strictness?_longToken, asks, letters]
    rw [← same, List.filterMap_cons, List.filterMap_nil]
    cases (longToken long).strictness? <;> rfl
  all_goals
    have silent : strictness? word = none := by
      refine Option.eq_none_iff_forall_ne_some.mpr fun b found => ?_
      have letters := (asks b).mp found
      cases b <;> simp_all [strictnessWord]
    rw [silent]
  · exact strictness?_shortTokens _
  · rfl

theorem askedStrictness_eq_nil_iff :
    askedStrictness words = [] ↔ strictnessWord true ∉ words ∧ strictnessWord false ∉ words := by
  rw [askedStrictness, List.filterMap_eq_nil_iff]
  constructor
  · intro silent
    refine ⟨fun member => ?_, fun member => ?_⟩
    · exact absurd (silent _ member) nofun
    · exact absurd (silent _ member) nofun
  · rintro ⟨strict, lenient⟩ word member
    refine Option.eq_none_iff_forall_ne_some.mpr fun b asks => ?_
    obtain rfl := strictness?_eq_some_iff.mp asks
    cases b with
    | true => exact strict member
    | false => exact lenient member

theorem strictness_tokens (sound : ∀ e, Token.problem e ∉ tokens words) :
    (tokens words).filterMap Token.strictness? = askedStrictness words := by
  induction words with
  | nil => rfl
  | cons word rest ih =>
    by_cases lone : word = "--"
    · subst lone
      cases rest with
      | nil => rfl
      | cons next rest => exact absurd List.mem_cons_self (sound .unknown)
    · rw [tokens_cons lone] at sound ⊢
      have others := ih fun e member => sound e (List.mem_append_right _ member)
      rw [List.filterMap_append, strictness_wordTokens, others]
      unfold askedStrictness
      cases found : strictness? word <;> simp [found]

theorem tokens_flag (b : Bool) (words : List String) :
    ∃ token, token.strictness? = some b ∧ tokens (strictnessWord b :: words) = token :: tokens words := by
  cases b with
  | true => exact ⟨.flag .strict, rfl, rfl⟩
  | false => exact ⟨.flag .noStrict, rfl, rfl⟩

theorem alike_tokens (same : SameButStrictness words others) :
    List.Forall₂ Alike (tokens words) (tokens others) := by
  induction same with
  | nil => exact .nil
  | @cons word other words others either same ih =>
    rcases either with rfl | ⟨asks, asks'⟩
    · have reflexive : ∀ front : List Token, List.Forall₂ Alike front front :=
        fun front => List.forall₂_same.mpr fun token _ => .refl token
      by_cases lone : word = "--"
      · subst lone
        cases same with
        | nil => exact .nil
        | cons => exact reflexive [.problem .unknown]
      · rw [tokens_cons lone, tokens_cons lone]
        exact List.rel_append (reflexive _) ih
    · obtain ⟨b, asks⟩ := Option.isSome_iff_exists.mp asks
      obtain ⟨c, asks'⟩ := Option.isSome_iff_exists.mp asks'
      obtain rfl := strictness?_eq_some_iff.mp asks
      obtain rfl := strictness?_eq_some_iff.mp asks'
      obtain ⟨token, flag, split⟩ := tokens_flag b words
      obtain ⟨token', flag', split'⟩ := tokens_flag c others
      rw [split, split']
      exact .cons (.flags flag flag') ih

theorem problem_of_alike {tokens others : List Token} (alike : List.Forall₂ Alike tokens others)
    {e : ArgumentError} (member : Token.problem e ∈ others) : Token.problem e ∈ tokens := by
  induction alike with
  | nil => exact member
  | cons alike _ ih =>
    rcases List.mem_cons.mp member with rfl | member
    · exact List.mem_cons.mpr (.inl alike.problem.symm)
    · exact List.mem_cons_of_mem _ (ih member)

end DocQuery.Arguments
