/-
  The upkeep of tables: analysis, repair, caching, truncation and comments.
-/
import RelQuery.Sql.Grammar.Table

namespace RelQuery.Sql.Grammar

open Sql.Parser

/-! ## Analysis -/

/-- What is analyzed of a table, and how. -/
structure Analysis where
  partitions : Option String := none
  statistics : Bool := false
  noScan : Bool := false
  metadata : Bool := false
  /-- The columns that are analyzed, if it is columns. -/
  columns : Option String := none

/-- Goes on with the next thing said about an analysis; a later one of a kind replaces an
earlier one. -/
def analysisClause? (inner : Level) (a : Analysis) : Parser (Option Analysis) := do
  match ← oneOf? ["PARTITION", "FOR", "CACHE", "NOSCAN", "COMPUTE"] with
  | some "PARTITION" =>
    let values ← parenthesized (canonicalList inner.expr)
    return some { a with partitions := some ("PARTITION (" ++ values ++ ")") }
  | some "FOR" =>
    keyword "COLUMNS"
    return some { a with columns := some ("FOR COLUMNS" ++ spaced (← attempt identList)) }
  | some "CACHE" =>
    keyword "METADATA"
    return some { a with metadata := true }
  | some "NOSCAN" => return some { a with noScan := true }
  | some _ =>
    keyword "STATISTICS"
    return some { a with statistics := true }
  | none => return none

/-- An analysis, after the word ANALYZE. -/
def analyze (inner : Level) : Parser String := do
  keyword "TABLE"
  let n ← name
  let a ← iterate (analysisClause? inner) {}
  return "ANALYZE TABLE " ++ Name.canonical n ++ spaced a.partitions
    ++ trail a.statistics "COMPUTE STATISTICS"
    ++ trail a.noScan "NOSCAN" ++ trail a.metadata "CACHE METADATA"
    ++ spaced a.columns

/-! ## Repair -/

/-- What is done about the partitions of a table. -/
def partitionAction : Parser (Option String) := do
  let action ← oneOf? ["ADD", "DROP", "SYNC"]
  keyword "PARTITIONS"
  return action.map (· ++ " PARTITIONS")

/-- A check of a table, after the word MSCK. -/
def tableCheck : Parser String := do
  let repair ← keyword? "REPAIR"
  keyword "TABLE"
  let n ← name
  let action := (← attempt partitionAction).join
  return "MSCK " ++ mark repair "REPAIR" ++ "TABLE " ++ Name.canonical n ++ spaced action

/-! ## Caches -/

/-- What a table is cached with, up to the end of the text: properties, and a query in place of
the table's own rows. -/
def cached (inner : Level) : Parser String := do
  let n ← name
  let options ← after? "OPTIONS" do return "OPTIONS" ++ (← propertiesText)
  let source ← do
    match ← peek with
    | none => pure none
    | some (.word ..) =>
      let marked ← keyword? "AS"
      pure (some (mark marked "AS" ++ (← inner.query).canonical))
    | some _ => expected "a QUERY statement"
  return Name.canonical n ++ spaced options ++ spaced source

/-- The caching of a table, perhaps with a flag, after the word CACHE. -/
def cache (inner : Level) : Parser String := do
  if ← keyword? "TABLE" then return "CACHE TABLE " ++ (← cached inner)
  else
    let flag ← name
    require (← keyword? "TABLE") (expected "a `TABLE` keyword")
    return "CACHE " ++ Name.canonical flag ++ " TABLE " ++ (← cached inner)

/-- The end of the caching of a table, after the word UNCACHE; it is the end of the text too. -/
def uncache : Parser String := do
  require (← keyword? "TABLE") (expected "a `TABLE` keyword")
  let ifExists ← keywords? ["IF", "EXISTS"]
  let n ← name
  require (← peek).isNone (expected "an `EOF`")
  return "UNCACHE TABLE " ++ mark ifExists "IF EXISTS" ++ Name.canonical n

/-! ## Truncation and comments -/

def truncate (inner : Level) : Parser String := do
  keyword "TABLE"
  let n ← name
  let partitions ← after? "PARTITION" (parenthesized (canonicalList inner.expr))
  return "TRUNCATE TABLE " ++ Name.canonical n
    ++ spaced (partitions.map fun p => "PARTITION (" ++ p ++ ")")

def comment : Parser String := do
  keyword "ON"
  let kind ← oneOfThe "comment object_type" ["COLUMN", "TABLE"]
  let n ← name
  keyword "IS"
  let value ← do
    if ← keyword? "NULL" then pure "NULL"
    else pure ("'" ++ (← stringLiteral) ++ "'")
  return "COMMENT ON " ++ kind ++ " " ++ Name.canonical n ++ " IS " ++ value

end RelQuery.Sql.Grammar
