/-
  Sessions: running statements, as text or as requests, on a database.
-/
import RelQuery.Binding
import RelQuery.Execution
import RelQuery.Sql.Reading

namespace RelQuery.Session

open Log (report)

/-- What a statement gives. -/
structure Result where
  outcome : Outcome
  /-- Whether the statement asks for rows rather than for a change. -/
  isQuery : Bool
  deriving DecidableEq, Repr

/-- The plan of a request, which is reported if it is that of a query. -/
def plan (request : Request) (db : Database) : Reading Plan := do
  let plan ← Binding.request db request
  if let .project _ _ := plan then report .debug ("Plan:\n" ++ plan.text)
  return plan

/-- Carries out a request. -/
def executeRequest (request : Request) : Action Result := do
  let plan ← Action.reading (plan request)
  let outcome ← Execution.run plan
  return ⟨outcome, plan.isQuery⟩

/-- Carries out the statement that a text makes. -/
def execute (text : String) : Action Result := do
  report .info ("Executing SQL: " ++ text)
  executeRequest (← MonadExcept.ofExcept (Sql.readRequest text))

end RelQuery.Session
