/-
  Binding: from requests to plans, with every name resolved against the catalog.
-/
import RelQuery.JoinTree
import RelQuery.Scope

namespace RelQuery.Binding

open Log (report)

/-- The relations of those names, which must be there and be named once. -/
def relations (catalog : Catalog) (bound : List Schema) :
    List String → Except Error (List Schema)
  | [] => .ok bound
  | name :: names => do
    let r ← catalog.lookup name
    if bound.any (·.SameRelation r) then .error (.repeatedRelation name)
    else relations catalog (bound ++ [r]) names

def operand (scope : Scope) : Operand → Except Error Term
  | .constant d => .ok (.constant d)
  | .attr name => (scope.resolve name).map .attr

/-- How a term's type is shown in a warning. -/
def typeText (t : Term) : String := (t.type?.map Ty.text).getD ""

/-- The predicate a comparison means. One between constants is refused; one between values of
different types only gets a warning. -/
def comparison (scope : Scope) (c : Comparison) : Reading Predicate := do
  let left ← MonadExcept.ofExcept (operand scope c.left)
  let right ← MonadExcept.ofExcept (operand scope c.right)
  let p : Predicate := ⟨left, right⟩
  if left.relation?.isNone && right.relation?.isNone then throw (.constantPredicate p.text)
  if left.type? ≠ right.type? then
    report .warn ("Predicate " ++ p.text ++ " compares " ++ typeText left ++ " with "
      ++ typeText right ++ ", it can never hold")
  return p

/-- What a query's select list gives. -/
def outputs (scope : Scope) (names : List AttributeName) : Except Error (List Term) :=
  if names.isEmpty then .ok (scope.expandAll.map .attr)
  else (names.mapM scope.resolve).map (·.map .attr)

/-- The plan of a query: a projection over a join tree. -/
def query (db : Database) (q : Query) : Reading Plan := do
  let scope : Scope := ⟨← MonadExcept.ofExcept (relations db.catalog [] q.relations)⟩
  let predicates ← q.comparisons.mapM (comparison scope)
  let outputs ← MonadExcept.ofExcept (outputs scope q.outputs)
  if q.distinct then throw (.notImplemented "DISTINCT")
  if q.orderBy.isSome then throw (.notImplemented "ORDER BY")
  let input ← JoinTree.build db scope.relations predicates
  return .project outputs input

/-- The plan of a request. All rows of an insertion are checked before any is written. -/
def request (db : Database) : Request → Reading Plan
  | .createTable name attributes primaryKey => do
    return .create (← MonadExcept.ofExcept (Schema.define name attributes primaryKey))
  | .dropTable name => return .drop name
  | .insert name rows => do
    let r ← MonadExcept.ofExcept (db.catalog.lookup name)
    return .insert r (← MonadExcept.ofExcept (rows.mapM (Tuple.ofValues r)))
  | .select q => query db q
  | .showTables => return .showTables
  | .explain q => do return .explain (← query db q).text

end RelQuery.Binding
