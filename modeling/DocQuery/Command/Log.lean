import DocQuery.Command.Run

/-!
# The log

The events of a run, the filter that decides which of them are logged, and what the command as a
whole leaves behind.
-/

namespace DocQuery.Command

inductive Level where
  | error
  | warn
  | info
deriving DecidableEq

namespace Level

/-- The word that a log line starts with. -/
def word : Level → String
  | .error => "ERROR"
  | .warn => "WARN"
  | .info => "INFO"

/-- A filter logs the events up to a rank. -/
def rank : Level → Nat
  | .error => 1
  | .warn => 2
  | .info => 3

end Level

inductive Event where
  | ready
  /-- Documents were passed over because they could not be evaluated. -/
  | faulted (count : Nat)
  | done (summary : Scan.Summary)
  | failed (error : Error)

namespace Event

def level : Event → Level
  | .ready => .info
  | .faulted _ => .warn
  | .done _ => .info
  | .failed _ => .error

def message : Event → String
  | .ready => "logging setup"
  | .faulted _ => "some documents could not be evaluated"
  | .done _ => "done"
  | .failed error => "mqlmatch failed: " ++ error.headline

def fields : Event → List (String × Nat)
  | .faulted count => [("faults", count)]
  | .done summary =>
    [("scanned", summary.scanned), ("matched", summary.matched), ("faults", summary.faults)]
  | _ => []

end Event

namespace Report

/-- The scan warns before it returns, and its counts or the failure of the run are logged after. -/
def events (report : Report) : List Event :=
  (report.warning.map Event.faulted).toList ++
    match report.result with
    | .ok summary => [.done summary]
    | .error e => [.failed e]

def success (report : Report) : Bool := report.result.isOk

end Report

/-- The highest rank that a filter logs. An empty filter logs errors, and a word that is no level
logs nothing. -/
def filterRank (filter : String) : Nat :=
  let word := filter.map Char.toLower
  if word = "" ∨ word = "error" then 1
  else if word = "warn" then 2
  else if word = "info" ∨ word = "debug" ∨ word = "trace" then 3
  else 0

/-- The events that a filter lets through. -/
def logged (filter : String) (events : List Event) : List Event :=
  events.filter fun e => e.level.rank ≤ filterRank filter

def versionText : String := "mqlmatch 0.1.0\n"

def helpText : String :=
  "Print the newline-delimited JSON documents that match a Mongo-style query\n\n" ++
  "Usage: mqlmatch [OPTIONS]\n\n" ++
  "Options:\n" ++
  "  -q, --query <JSON>        Query document as JSON (or set MQL_QUERY)\n" ++
  "      --query-file <FILE>   Read the query document from a JSON file\n" ++
  "  -c, --config <FILE>       TOML settings file (or set MQL_CONFIG)\n" ++
  "  -i, --input <FILE>        Documents to scan, one JSON object per line (default: stdin)\n" ++
  "      --count               Print only the number of matching documents\n" ++
  "      --strict              Fail on documents the query cannot be evaluated against\n" ++
  "      --no-strict           Skip documents the query cannot be evaluated against\n" ++
  "      --log-level <FILTER>  Log filter used when RUST_LOG is not set\n" ++
  "  -h, --help                Print help\n" ++
  "  -V, --version             Print version\n"

structure Outcome where
  exitCode : Nat
  output : List UInt8
  log : List Event

/-- Executes the command on what parsing its words gave, and logs what the filter lets through. -/
def execute (files : Files) (environment : Environment) (stdin : List UInt8) :
    Except ArgumentError Arguments → Outcome
  | .error .help => ⟨0, bytesOf helpText, []⟩
  | .error .version => ⟨0, bytesOf versionText, []⟩
  | .error _ => ⟨2, [], []⟩
  | .ok arguments =>
    let report := run files stdin arguments
    let filter := environment.logFilter.getD arguments.logLevel
    ⟨if report.success then 0 else 1, report.output, logged filter (.ready :: report.events)⟩

end DocQuery.Command
