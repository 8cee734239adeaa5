import DocQuery.Query.Operator

/-!
# Compiling queries

A query is an object. Each entry is a clause, and several clauses are a conjunction. An operator
applies to the value at hand; any other key is a field, whose object argument is a query of that
field and whose other argument is a value to equal. Compiling never fails: a wrong shape becomes a
node that faults when it is tested.
-/

namespace DocQuery.Query

/-- The clause of an operator that takes no queries, or takes queries and is given something
else. -/
def operatorClause (op : Operator) (argument : Json) : Predicate :=
  match op with
  | .eq => .eq argument
  | .ne => .ne argument
  | .ordered comparison => .ordered comparison argument
  | .oneOf =>
    match argument with
    | .array set => .oneOf set
    | _ => .malformed (.expectedArray op.name)
  | .noneOf =>
    match argument with
    | .array set => .noneOf set
    | _ => .malformed (.expectedArray op.name)
  | .present =>
    match argument with
    | .bool expected => .present expected
    | _ => .malformed (.expectedBool op.name)
  | .all => .malformed (.expectedArray op.name)
  | .any => .malformed (.expectedArray op.name)

/-- The clause of an operator that takes queries; `none` stands for a query that is no object. -/
def connectiveClause (op : Operator) (node : List Predicate → Predicate) :
    Option (List Predicate) → Predicate
  | some clauses => node clauses
  | none => .malformed (.expectedDocument op.name)

mutual
def compileEntry (key : String) (argument : Json) : Predicate :=
  match Operator.ofName? key, argument with
  | some .all, .array queries => connectiveClause .all .all (compileQueries queries)
  | some .any, .array queries => connectiveClause .any .any (compileQueries queries)
  | some op, argument => operatorClause op argument
  | none, .object entries => .field key (compileEntries entries)
  | none, argument => .field key (.eq argument)

/-- The predicate of a query's entries; a single clause stands by itself. -/
def compileEntries : List (String × Json) → Predicate
  | [] => .all []
  | [(key, argument)] => compileEntry key argument
  | (key, argument) :: second :: rest =>
    .all (compileEntry key argument :: compileClauses (second :: rest))

def compileClauses : List (String × Json) → List Predicate
  | [] => []
  | (key, argument) :: rest => compileEntry key argument :: compileClauses rest

/-- The predicates of queries; `none` if one of them is no object. -/
def compileQueries : List Json → Option (List Predicate)
  | [] => some []
  | .object entries :: rest => (compileQueries rest).map (compileEntries entries :: ·)
  | _ :: _ => none
end

def compile : Json → Predicate
  | .object entries => compileEntries entries
  | _ => .malformed .notAnObject

def operatorPredicate (op : Operator) (argument : Json) : Predicate := compileEntry op.name argument

end DocQuery.Query
