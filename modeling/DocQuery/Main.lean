import DocQuery.Command.Log

/-!
# The program

Collects what the command needs from the outside, executes it, and writes what it leaves behind.
-/

namespace DocQuery.Program

/-- Every text that can be the value of an option: the ends of the words. -/
def possiblePaths (words : List String) : List String :=
  words.flatMap fun word =>
    (List.range (word.length + 1)).map fun n => String.ofList (word.toList.drop n)

/-- What a path leads to, without the content of a file. -/
def entryAt (path : String) : IO (Option Entry) := do
  try
    let place ← IO.FS.realPath path
    if !(← place.pathExists) then return none
    match (← place.metadata).type with
    | .file => return some (.file [])
    | _ => return some .directory
  catch _ => return none

/-- A file with its content, where it can be read. -/
def contentAt (path : String) : IO (Option Entry) := do
  try return some (.file (← IO.FS.readBinFile path).data.toList)
  catch _ => return none

/-- The view of the paths among those given. -/
def viewOf (paths : List String) (look : String → IO (Option Entry)) : IO Files := do
  let found ← paths.mapM fun path => return (path, ← look path)
  return fun path => (found.lookup path).join

partial def readAll (stream : IO.FS.Stream) (before : ByteArray) : IO ByteArray := do
  let chunk ← stream.read 65536
  if chunk.isEmpty then return before else readAll stream (before ++ chunk)

def logLine (event : Command.Event) : String :=
  let counts := event.fields.map fun (name, n) => " " ++ name ++ "=" ++ String.ofList (decimalText n)
  event.level.word ++ " " ++ event.message ++ String.join counts

/-- Executes the command on its words. -/
def run (words : List String) : IO UInt32 := do
  let environment : Environment :=
    { query := ← IO.getEnv "MQL_QUERY"
      config := ← IO.getEnv "MQL_CONFIG"
      logLevel := ← IO.getEnv "MQL_LOG"
      logFilter := ← IO.getEnv "RUST_LOG" }
  let parsed := Arguments.parse (← viewOf (possiblePaths words) entryAt) environment words
  let (paths, scansStdin) := match parsed with
    | .ok a => (a.config.toList ++ a.queryFile.toList ++ a.input.toList, a.input.isNone)
    | .error _ => ([], false)
  let files ← viewOf paths contentAt
  let stdin ← if scansStdin then readAll (← IO.getStdin) .empty else pure .empty
  let outcome := Command.execute files environment stdin.data.toList parsed
  let stdout ← IO.getStdout
  stdout.write ⟨outcome.output.toArray⟩
  stdout.flush
  match parsed with
  | .error e => if outcome.exitCode ≠ 0 then IO.eprintln ("error: " ++ e.message)
  | .ok _ => pure ()
  for event in outcome.log do
    IO.eprintln (logLine event)
  return outcome.exitCode.toUInt32

end DocQuery.Program

def main (words : List String) : IO UInt32 := DocQuery.Program.run words
