import DocQuery.Command.Files

/-!
# Command line arguments

Words are read from the left, and the first problem wins. An option whose value is the next word is
taken up only when the reading goes on to another option or comes to the end, so that a word which
is no option at all is reported before the value. The environment fills options that the words leave
open.
-/

namespace DocQuery

inductive ArgumentError where
  /-- An option given twice, or two that exclude each other. -/
  | conflict
  | unknown
  /-- A value that is missing, or empty where it may not be. -/
  | invalidValue
  | tooManyValues
  | notFound (path : String)
  | notAFile (path : String)
  | help
  | version
deriving DecidableEq

def ArgumentError.message : ArgumentError → String
  | .conflict => "an option is given twice, or two options exclude each other"
  | .unknown => "a word is no option"
  | .invalidValue => "an option lacks its value"
  | .tooManyValues => "a flag has a value"
  | .notFound path => "Not found: " ++ path
  | .notAFile path => "Not a file: " ++ path
  | .help => "help is asked for"
  | .version => "the version is asked for"

inductive ValueOption where
  | query
  | queryFile
  | config
  | input
  | logLevel
deriving DecidableEq

inductive Flag where
  | count
  | strict
  | noStrict
  | help
  | version
deriving DecidableEq

structure Environment where
  query : Option String
  config : Option String
  logLevel : Option String
  /-- A log filter that outranks the log level of the arguments. -/
  logFilter : Option String

structure Arguments where
  query : Option String
  queryFromEnvironment : Bool
  queryFile : Option String
  config : Option String
  input : Option String
  count : Bool
  strict : Bool
  noStrict : Bool
  logLevel : String

namespace Arguments

/-- The strictness that the flags ask for, if they ask for any. -/
def strictOverride (a : Arguments) : Option Bool :=
  if a.strict then some true else if a.noStrict then some false else none

/-! ### Words -/

/-- What a word, or a letter of a word, asks for. -/
inductive Token where
  /-- An option with its value in the same word. -/
  | value (option : ValueOption) (text : String)
  /-- An option whose value is the next word. -/
  | expects (option : ValueOption)
  | flag (flag : Flag)
  | plain (text : String)
  | problem (error : ArgumentError)

inductive OptionKind where
  | value (option : ValueOption)
  | flag (flag : Flag)

def longOption? (name : String) : Option OptionKind :=
  [("query", OptionKind.value .query), ("query-file", .value .queryFile), ("config", .value .config),
    ("input", .value .input), ("log-level", .value .logLevel), ("count", .flag .count),
    ("strict", .flag .strict), ("no-strict", .flag .noStrict), ("help", .flag .help),
    ("version", .flag .version)].lookup name

def shortOption? (letter : Char) : Option OptionKind :=
  [('q', OptionKind.value .query), ('c', .value .config), ('i', .value .input), ('h', .flag .help),
    ('V', .flag .version)].lookup letter

/-- The token of a word that starts with two hyphens, without them. -/
def longToken (word : List Char) : Token :=
  let name := String.ofList (word.takeWhile (· != '='))
  match longOption? name, word.dropWhile (· != '=') with
  | none, _ => .problem .unknown
  | some (.value option), _ :: text => .value option (String.ofList text)
  | some (.value option), [] => .expects option
  | some (.flag _), _ :: _ => .problem .tooManyValues
  | some (.flag flag), [] => .flag flag

/-- The tokens of letters after one hyphen. The letters after an option that takes a value are its
value. -/
def shortTokens : List Char → List Token
  | [] => []
  | letter :: rest =>
    match shortOption? letter, rest with
    | none, _ => [.problem .unknown]
    | some (.flag flag), rest => .flag flag :: shortTokens rest
    | some (.value option), [] => [.expects option]
    | some (.value option), '=' :: text => [.value option (String.ofList text)]
    | some (.value option), text => [.value option (String.ofList text)]

/-- The tokens of all words. No word may follow two lone hyphens. -/
def tokens : List String → List Token
  | [] => []
  | word :: rest =>
    match word.toList with
    | ['-', '-'] => if rest.isEmpty then [] else [.problem .unknown]
    | '-' :: '-' :: long => longToken long :: tokens rest
    | '-' :: letter :: more => shortTokens (letter :: more) ++ tokens rest
    | _ => .plain word :: tokens rest

/-! ### Options -/

structure Given where
  query : Option String
  queryFile : Option String
  config : Option String
  input : Option String
  logLevel : Option String
  count : Bool
  strict : Bool
  noStrict : Bool

def Given.nothing : Given := ⟨none, none, none, none, none, false, false, false⟩

/-- Checks a path that has to lead to a file. -/
def checkFile (files : Files) (path : String) : Except ArgumentError Unit :=
  match files path with
  | none => .error (.notFound path)
  | some .directory => .error (.notAFile path)
  | some (.file _) => .ok ()

/-- Gives an option that is not given yet a value. -/
def Given.setValue (files : Files) (g : Given) (option : ValueOption) (text : String) :
    Except ArgumentError Given :=
  match option with
  | .query => if g.query.isSome then .error .conflict else .ok { g with query := some text }
  | .logLevel => if g.logLevel.isSome then .error .conflict else .ok { g with logLevel := some text }
  | .config =>
    if g.config.isSome then .error .conflict
    else if text.isEmpty then .error .invalidValue
    else .ok { g with config := some text }
  | .queryFile =>
    if g.queryFile.isSome then .error .conflict
    else
      match checkFile files text with
      | .error e => .error e
      | .ok () => .ok { g with queryFile := some text }
  | .input =>
    if g.input.isSome then .error .conflict
    else
      match checkFile files text with
      | .error e => .error e
      | .ok () => .ok { g with input := some text }

/-- Sets a flag that is not set. Each strictness flag takes the other back. -/
def Given.setFlag (g : Given) (flag : Flag) : Except ArgumentError Given :=
  match flag with
  | .count => if g.count then .error .conflict else .ok { g with count := true }
  | .strict =>
    if g.strict then .error .conflict else .ok { g with strict := true, noStrict := false }
  | .noStrict =>
    if g.noStrict then .error .conflict else .ok { g with strict := false, noStrict := true }
  | .help => .error .help
  | .version => .error .version

/-- An option that is not taken up yet, with its value once that is read. -/
structure Pending where
  option : ValueOption
  text : Option String

def takeUp (files : Files) (g : Given) : Option Pending → Except ArgumentError Given
  | none => .ok g
  | some ⟨_, none⟩ => .error .invalidValue
  | some ⟨option, some text⟩ => g.setValue files option text

def collect (files : Files) : Given → Option Pending → List Token → Except ArgumentError Given
  | g, pending, [] => takeUp files g pending
  | g, pending, token :: rest =>
    match token with
    | .problem e => .error e
    | .plain text =>
      match pending with
      | some ⟨option, none⟩ => collect files g (some ⟨option, some text⟩) rest
      | _ => .error .unknown
    | .expects option =>
      match takeUp files g pending with
      | .error e => .error e
      | .ok g => collect files g (some ⟨option, none⟩) rest
    | .value option text =>
      match takeUp files g pending with
      | .error e => .error e
      | .ok g =>
        match g.setValue files option text with
        | .error e => .error e
        | .ok g => collect files g none rest
    | .flag flag =>
      match takeUp files g pending with
      | .error e => .error e
      | .ok g =>
        match g.setFlag flag with
        | .error e => .error e
        | .ok g => collect files g none rest

/-- The log level of a run that is given none. -/
def defaultLogLevel : String := "warn"

/-- Fills what the words leave open. A query on the command line excludes a query file. -/
def complete (environment : Environment) (g : Given) : Except ArgumentError Arguments :=
  if g.config.isNone ∧ environment.config = some "" then .error .invalidValue
  else if g.query.isSome ∧ g.queryFile.isSome then .error .conflict
  else
    .ok {
      query := g.query <|> environment.query
      queryFromEnvironment := g.query.isNone && environment.query.isSome
      queryFile := g.queryFile
      config := g.config <|> environment.config
      input := g.input
      count := g.count
      strict := g.strict
      noStrict := g.noStrict
      logLevel := (g.logLevel <|> environment.logLevel).getD defaultLogLevel }

def parse (files : Files) (environment : Environment) (words : List String) :
    Except ArgumentError Arguments :=
  match collect files .nothing none (tokens words) with
  | .error e => .error e
  | .ok given => complete environment given

end Arguments

end DocQuery
