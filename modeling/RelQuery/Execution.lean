/-
  Execution: carrying out plans on a database.
-/
import RelQuery.Operator
import RelQuery.Database
import RelQuery.Text.Blank

namespace RelQuery

open Log (report)

/-- What carrying out a plan gives: a table of values, or a number of rows written. -/
structure Outcome where
  columns : List String
  rows : List (List Datum)
  affected : Nat
  deriving DecidableEq, Repr

namespace Outcome

/-- Nothing to show and nothing written. -/
def done : Outcome := ⟨[], [], 0⟩

/-- A single column of strings. -/
def ofStrings (column : String) (values : List String) : Outcome :=
  ⟨[column], values.map fun v => [.string v], 0⟩

end Outcome

namespace Execution

/-! ## Queries -/

/-- All rows of a query plan, which has to end in a projection. -/
def query (store : Store) (plan : Plan) (l : Store.Layout) : Answer Store.Layout Outcome :=
  match Operator.ofPlan plan with
  | .error e => (.error e, l)
  | .ok (.project outputs input) =>
    match input.acquire store input.initial l with
    | (.error e, _, l) => (.error e, l)
    | (.ok (), s, l) =>
      match (input.source store).drain (Source.valuesOf outputs) s l with
      | (rows, l) => (rows.map fun rows => ⟨outputs.map Term.text, rows, 0⟩, l)
  | .ok _ => (.error (.notAProjection plan.text), l)

/-! ## Insertions -/

/-- The key a tuple is stored under, its primary key or else a fresh number, and the store
that counts on from there. -/
def keyOf (store : Store) (t : Tuple) : Bytes × Store :=
  match t.primaryKey? with
  | some d => (d.encode, store)
  | none =>
    let (id, store) := store.freshId
    (Bytes.bigEndian 8 id.toNat, store)

/-- Writes a tuple into a table, over one with the same key. -/
def insertTuple (id : TableId) (store : Store) (t : Tuple) : Store :=
  let (key, store) := keyOf store t
  store.write id key t.encode

/-- Writes tuples in order; the answer is their number. -/
def insert (r : Schema) (tuples : List Tuple) : Action Nat := do
  let id ← MonadExcept.ofExcept ((← getThe Database).store.openTable r.name)
  modifyThe Database fun db => { db with store := tuples.foldl (insertTuple id) db.store }
  report .debug ("Inserted " ++ toString tuples.length ++ " row(s) into " ++ r.name)
  return tuples.length

/-! ## Plans -/

/-- The lines of a text, each a row. -/
def explanation (text : String) : Outcome :=
  .ofStrings "plan" ((Blank.lines text.toList).map String.ofList)

/-- Carries out a plan. -/
def run : Plan → Action Outcome
  | .create s => do
    Database.createRelation s
    return .done
  | .drop name => do
    Database.dropRelation name
    return .done
  | .showTables => do
    return .ofStrings "relation" (← getThe Database).catalog.names
  | .insert r tuples => do
    return ⟨[], [], ← insert r tuples⟩
  | .explain text => return explanation text
  | plan => Action.reading fun db => .of (query db.store plan)

end Execution

end RelQuery
