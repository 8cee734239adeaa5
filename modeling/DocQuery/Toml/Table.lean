import DocQuery.Json.Order

/-!
# TOML tables under construction

A table comes about by its own header, on the way to another header, or by a dotted key, and that
decides what may still be added to it: a header may open a table only once, and dotted keys reach
only into tables that dotted keys made. Values, inline tables among them, are closed.
-/

namespace DocQuery.Toml

inductive Origin where
  | header
  | implied
  | dotted
deriving DecidableEq

inductive Node where
  | value (value : Json)
  | table (origin : Origin) (entries : List (String × Node))
  /-- An array of tables, of which the last is open. -/
  | tables (earlier : List (List (String × Node))) (last : List (String × Node))

/-- The entries of a table, in the order of their keys' first mention. -/
abbrev Entries := List (String × Node)

namespace Entries

/-- Puts what `change` makes of a key's node, if it makes something. -/
def alter (key : String) (change : Option Node → Option Node) : Entries → Option Entries
  | [] => (change none).map fun node => [(key, node)]
  | (k, node) :: rest =>
    if k = key then (change (some node)).map fun node => (k, node) :: rest
    else (alter key change rest).map ((k, node) :: ·)

/-- Changes the table at the end of a path, making the tables on the way that are missing. Through
an array of tables the path leads into its last. Dotted paths do not enter tables with a header of
their own. -/
def descend (dotted : Bool) (change : Origin → Entries → Option Entries) :
    List String → Origin → Entries → Option Entries
  | [], origin, entries => change origin entries
  | key :: path, _, entries =>
    entries.alter key fun
      | none =>
        let origin := if dotted then .dotted else .implied
        (descend dotted change path origin []).map (.table origin)
      | some (.table origin inner) =>
        if dotted && origin == .header then none
        else (descend dotted change path origin inner).map (.table origin)
      | some (.tables earlier last) => (descend dotted change path .header last).map (.tables earlier)
      | some (.value _) => none

/-- Adds a value under a dotted key to a table that has a header of its own. The table that gets the
value is that one, or one made by dotted keys. -/
def assign (path : List String) (key : String) (value : Json) (entries : Entries) :
    Option Entries :=
  descend true
    (fun origin inner =>
      if (origin == .dotted) == path.isEmpty then none
      else
        inner.alter key fun
          | none => some (.value value)
          | some _ => none)
    path .header entries

end Entries

/-- The entries in the order of their keys' bytes. -/
def sortEntries (entries : List (String × Json)) : List (String × Json) :=
  entries.mergeSort fun a b => orderText a.1 b.1 != .gt

mutual
/-- The value of a finished node; keys are in the order of their bytes. -/
def Node.toJson : Node → Json
  | .value value => value
  | .table _ entries => .object (sortEntries (entriesToJson entries))
  | .tables earlier last => .array (tablesToJson earlier ++ [.object (sortEntries (entriesToJson last))])

def entriesToJson : List (String × Node) → List (String × Json)
  | [] => []
  | (key, node) :: rest => (key, node.toJson) :: entriesToJson rest

def tablesToJson : List (List (String × Node)) → List Json
  | [] => []
  | entries :: rest => .object (sortEntries (entriesToJson entries)) :: tablesToJson rest
end

structure Header where
  path : List String
  key : String
  isArray : Bool

/-- A document under construction: what is finished, and the table that its last header opened, or
the root's own entries before the first header. -/
structure Draft where
  root : Entries
  header : Option Header
  current : Entries

namespace Draft

def empty : Draft := ⟨[], none, []⟩

def close (d : Draft) : Option Entries :=
  match d.header with
  | none => some d.current
  | some h =>
    Entries.descend false
      (fun _ inner =>
        inner.alter h.key fun
          | none => some (if h.isArray then .tables [] d.current else .table .header d.current)
          | some (.tables earlier last) =>
            if h.isArray then some (.tables (earlier ++ [last]) d.current) else none
          | some (.table origin _) =>
            if !h.isArray && origin == .implied then some (.table .header d.current) else none
          | some (.value _) => none)
      h.path .header d.root

/-- The entries that a header's table has already, because later headers passed through it. -/
def passed : List String → String → Entries → Entries
  | [], key, entries =>
    match entries.lookup key with
    | some (.table .implied inner) => inner
    | _ => []
  | step :: path, key, entries =>
    match entries.lookup step with
    | some (.table _ inner) => passed path key inner
    | some (.tables _ last) => passed path key last
    | _ => []

def openTable (d : Draft) (h : Header) : Option Draft :=
  d.close.map fun root =>
    ⟨root, some h, if h.isArray then [] else passed h.path h.key root⟩

def assign (d : Draft) (path : List String) (key : String) (value : Json) : Option Draft :=
  (Entries.assign path key value d.current).map fun current => { d with current := current }

end Draft

end DocQuery.Toml
