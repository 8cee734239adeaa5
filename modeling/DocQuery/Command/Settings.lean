import DocQuery.Command.Files
import DocQuery.Text.Bytes
import DocQuery.Toml.Reader

/-!
# Settings

A settings file is a TOML document with the keys `query` and `strict`, both optional, and no others.
-/

namespace DocQuery

structure Settings where
  /-- The query for when no other is given. -/
  query : Option Json
  /-- Fail on documents the query cannot be evaluated against. -/
  strict : Bool

namespace Settings

def unset : Settings := ⟨none, false⟩

def ofEntries? (entries : List (String × Json)) : Option Settings :=
  entries.foldlM
    (fun settings (key, value) =>
      if key = "query" then some { settings with query := some value }
      else if key = "strict" then
        match value with
        | .bool strict => some { settings with strict := strict }
        | _ => none
      else none)
    unset

def parse? (text : String) : Option Settings := (Toml.parse? text).bind ofEntries?

end Settings

/-- The text of a file; none if there is no such file or its bytes are no text. -/
def Files.text? (files : Files) (path : String) : Option String :=
  match files path with
  | some (.file content) => decode? content
  | _ => none

end DocQuery
