/-!
# Files

What a run sees of the file system: for every path, the file or the directory it leads to.
`Files.ofList` gives the view from a working directory that is listed in full.
-/

namespace DocQuery

inductive Entry where
  | file (content : List UInt8)
  | directory

/-- What every path leads to, if to anything. -/
abbrev Files := String → Option Entry

namespace Files

/-- The steps of a path, between its slashes. -/
def steps (path : String) : List String := go [] path.toList
where
  go (before : List Char) : List Char → List String
    | [] => [String.ofList before.reverse]
    | c :: rest =>
      if c = '/' then String.ofList before.reverse :: go [] rest else go (c :: before) rest

/-- The entries that a listed name stands for: the directories on its way, and itself. A name that
ends with a slash is a directory. -/
def entriesOf (name : String) (content : List UInt8) : List (List String × Entry) :=
  let path := steps name
  let parents := (List.range (path.length - 1)).map fun n => (path.take (n + 1), Entry.directory)
  if path.getLast? = some "" then parents else parents ++ [(path, .file content)]

/-- Where a walk has come to: an entry of the working directory, or a directory above it. -/
inductive Place where
  | inside (path : List String) (entry : Entry)
  | above

/-- One step of a walk. Only directories have steps. -/
def step (listed : List (List String × Entry)) (place : Place) (name : String) : Option Place :=
  match place with
  | .inside _ (.file _) => none
  | .inside path .directory =>
    if name = "" ∨ name = "." then some place
    else if name = ".." then
      if path = [] then some .above else some (.inside path.dropLast .directory)
    else (listed.lookup (path ++ [name])).map (.inside (path ++ [name]))
  | .above => if name = "" ∨ name = "." ∨ name = ".." then some .above else none

/-- The view from a working directory with those files and directories, and nothing else. -/
def ofList (names : List (String × List UInt8)) : Files := fun path =>
  let listed := names.flatMap fun (name, content) => entriesOf name content
  let start : Place := if path.startsWith "/" then .above else .inside [] .directory
  if path.isEmpty then none
  else
    match (steps path).foldlM (step listed) start with
    | some (.inside _ entry) => some entry
    | some .above => some .directory
    | none => none

end Files

end DocQuery
