/-
  Settings of a database, from the command line and the environment.
-/
import RelQuery.Log

namespace RelQuery

structure Config where
  /-- Where a durable database lives; without it the database is kept in memory. -/
  dataDir : Option String := none
  logLevel : Log.Filter := .upTo .info
  /-- Whether joins may build hash tables. -/
  hashJoin : Bool := false
  /-- The most rows a relation may hold for a hash table to be built from it. -/
  maxBuildRows : Nat := 1024
  deriving DecidableEq, Repr

namespace Config

/-- The variable that sets the log level. -/
def logVariable : String := "SPJQL_LOG"

/-- The variable that allows hash joins when it is `1`. -/
def hashJoinVariable : String := "SPJQL_HASH_JOIN"

/-- Settings from the command line, the program's name first, and the two variables. An
unknown log level changes nothing. -/
def ofEnvironment (args : List String) (log hashJoin : Option String) : Config :=
  let level := (log.bind Log.Filter.ofName?).getD (.upTo .info)
  { dataDir := args[1]?, logLevel := level, hashJoin := hashJoin = some "1" }

end Config

end RelQuery
