import DocQuery.Scan.Basic
import DocQuery.Query.Compile
import DocQuery.Command.Arguments
import DocQuery.Command.Settings

/-!
# Running the command

A run loads its settings, finds its query, opens its input and scans it. The first of these that
fails ends the run, and what the scan has written by then stays written. The query is that of the
first source there is: the command line, the query file, the environment, the settings.
-/

namespace DocQuery.Command

/-- Why a run fails. -/
inductive Error where
  | unreadableSettings (path : String)
  | invalidSettings (path : String)
  | invalidQueryOption (cause : ReadError)
  | unreadableQueryFile (path : String)
  | invalidQueryFile (path : String) (cause : ReadError)
  | invalidQueryVariable (cause : ReadError)
  | noQuery
  | unreadableInput (path : String)
  | scan (failure : Scan.Failure)

/-- What a scan was doing when it failed. -/
def scanMessage (failure : Scan.Failure) : String :=
  let line := String.ofList (decimalText failure.line)
  match failure.problem with
  | .unreadable => "read line " ++ line
  | .unparsable _ => "parse document on line " ++ line
  | .unevaluable _ => "evaluate document on line " ++ line

/-- What a run was doing when it failed. -/
def Error.message : Error → String
  | .unreadableSettings path => "read settings file " ++ path
  | .invalidSettings path => "parse " ++ path
  | .invalidQueryOption _ => "parse --query"
  | .unreadableQueryFile path => "read " ++ path
  | .invalidQueryFile path _ => "parse " ++ path
  | .invalidQueryVariable _ => "parse MQL_QUERY"
  | .noQuery => "no query given: use --query, --query-file or a settings file with a [query] table"
  | .unreadableInput path => "open " ++ path
  | .scan failure => scanMessage failure

/-- The characters before the first colon that a blank follows. Such a pair stands between a message
and its first cause. -/
def beforeColon : List Char → List Char
  | [] => []
  | [c] => [c]
  | c :: d :: rest => if c = ':' ∧ d = ' ' then [] else c :: beforeColon (d :: rest)

/-- The message as far as the log is modelled. A log line goes on with the causes of the error, each
after a colon and a blank, and the texts of causes are not modelled. Nothing else marks where they
begin, so the first such pair ends the headline, even if it is part of the message, as in that of
`noQuery`. -/
def Error.headline (e : Error) : String := String.ofList (beforeColon e.message.toList)

/-- Loads the settings file, if one is named. -/
def loadSettings (files : Files) : Option String → Except Error Settings
  | none => .ok .unset
  | some path =>
    match files.text? path with
    | none => .error (.unreadableSettings path)
    | some text =>
      match Settings.parse? text with
      | none => .error (.invalidSettings path)
      | some settings => .ok settings

/-- Finds the query. -/
def resolveQuery (files : Files) (arguments : Arguments) (settings : Settings) :
    Except Error Json :=
  match arguments.query, arguments.queryFromEnvironment, arguments.queryFile with
  | some text, false, _ => (Json.parse text).mapError .invalidQueryOption
  | _, _, some path =>
    match files.text? path with
    | none => .error (.unreadableQueryFile path)
    | some text => (Json.parse text).mapError (.invalidQueryFile path)
  | some text, true, none => (Json.parse text).mapError .invalidQueryVariable
  | none, _, none =>
    match settings.query with
    | some query => .ok query
    | none => .error .noQuery

/-- The bytes to scan: those of the input file, if one is named, and else those of standard
input. -/
def openInput (files : Files) (stdin : List UInt8) : Option String → Except Error (List UInt8)
  | none => .ok stdin
  | some path =>
    match files path with
    | some (.file content) => .ok content
    | _ => .error (.unreadableInput path)

/-- The options of the scan; a strictness flag outranks the settings. -/
def scanOptions (arguments : Arguments) (settings : Settings) : Scan.Options :=
  { countOnly := arguments.count
    strict := arguments.strictOverride.getD settings.strict }

/-- What a run scans, and how. -/
structure Plan where
  options : Scan.Options
  query : Json
  input : List UInt8

/-- Loads all that a run needs. -/
def prepare (files : Files) (stdin : List UInt8) (arguments : Arguments) : Except Error Plan :=
  match loadSettings files arguments.config with
  | .error e => .error e
  | .ok settings =>
    match resolveQuery files arguments settings with
    | .error e => .error e
    | .ok query =>
      match openInput files stdin arguments.input with
      | .error e => .error e
      | .ok input => .ok ⟨scanOptions arguments settings, query, input⟩

/-- What a run has written and warned of, and its counts or its failure. -/
structure Report where
  output : List UInt8
  /-- The number of faults in the warning of its scan, if that has given one. -/
  warning : Option Nat
  result : Except Error Scan.Summary

def run (files : Files) (stdin : List UInt8) (arguments : Arguments) : Report :=
  match prepare files stdin arguments with
  | .error e => ⟨[], none, .error e⟩
  | .ok plan =>
    let report := Scan.run plan.options (Query.compile plan.query) plan.input
    ⟨report.output, report.warning, report.result.mapError .scan⟩

end DocQuery.Command
