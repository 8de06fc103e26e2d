/-
  Changes of rows: insertions, updates, deletions and merges.
-/
import RelQuery.Sql.Grammar.Table

namespace RelQuery.Sql.Grammar

open Sql.Parser

/-- A list of select items after the word RETURNING. -/
def returning? (inner : Level) : Parser (Option String) := do
  return listClause "RETURNING"
    ((← listAfter ["RETURNING"] (selectItem inner)).map SelectItem.canonical)

/-- A value for all that is named in front of an equals sign. -/
def assignment (inner : Level) : Parser String := do
  let names ← wordsAhead
  symbol "="
  return ".".intercalate (names.map Ident.canonical) ++ " = " ++ (← canonically inner.expr)

/-- What is done about rows that are there already, after the word ON. A second space sets off
the words ON CONFLICT. -/
def onConflict (inner : Level) : Parser String := do
  if ← keyword? "CONFLICT" then
    let target ← do
      if ← keywords? ["ON", "CONSTRAINT"] then
        pure (" ON CONSTRAINT " ++ Name.canonical (← name))
      else match ← columns? with
        | [] => pure ""
        | names => pure (columnsText names)
    keyword "DO"
    if ← keyword? "NOTHING" then return " ON CONFLICT" ++ target ++ " DO NOTHING"
    else
      keywords ["UPDATE", "SET"]
      let assignments ← separated (assignment inner)
      let condition ← after? "WHERE" (canonically inner.expr)
      return " ON CONFLICT" ++ target ++ " DO UPDATE SET " ++ commaSeparated assignments
        ++ spaced (condition.map ("WHERE " ++ ·))
  else
    keywords ["DUPLICATE", "KEY", "UPDATE"]
    return "ON DUPLICATE KEY UPDATE " ++ commaSeparated (← separated (assignment inner))

/-- An insertion into a table, after the words up to its name. -/
def tableInsertion (inner : Level) (head : String) : Parser Insert := do
  let n ← name
  let columns ← columns?
  let partition ← after? "PARTITION" (parenthesized (canonicalList inner.expr))
  let laterColumns ← columns?
  let source ← inner.query
  let onConflict ← after? "ON" (onConflict inner)
  let returning ← returning? inner
  return {
    head, name := n, columns, partition := partition.map ("PARTITION (" ++ · ++ ")")
    laterColumns, source, onConflict, returning }

/-- An insertion into files, after the word DIRECTORY. -/
def directoryInsertion (inner : Level) (head : String) : Parser String := do
  let path ← stringLiteral
  let format ← afterAll? ["STORED", "AS"] fileFormat
  let source ← inner.query
  return head ++ " DIRECTORY '" ++ path ++ "'" ++ spaced (format.map ("STORED AS " ++ ·)) ++ " "
    ++ source.canonical

/-- An insertion, after the word INSERT. -/
def insertion (inner : Level) : Parser Statement := do
  let action ← oneOf? ["INTO", "OVERWRITE"]
  let isLocal ← keyword? "LOCAL"
  if ← keyword? "DIRECTORY" then
    let head := "INSERT" ++ trail (action == some "OVERWRITE") "OVERWRITE"
      ++ trail isLocal "LOCAL"
    return .other (← directoryInsertion inner head)
  else
    let table ← keyword? "TABLE"
    return .insert (← tableInsertion inner ("INSERT" ++ spaced action ++ trail table "TABLE"))

/-- An update, after the word UPDATE. -/
def update (inner : Level) : Parser String := do
  let table ← tableWithJoins inner
  keyword "SET"
  let assignments ← separated (assignment inner)
  let source ← after? "FROM" (tableWithJoins inner)
  let condition ← after? "WHERE" (canonically inner.expr)
  let returning ← returning? inner
  return "UPDATE " ++ table.canonical ++ " SET " ++ commaSeparated assignments
    ++ spaced (source.map ("FROM " ++ ·.canonical)) ++ spaced (condition.map ("WHERE " ++ ·))
    ++ spaced returning

/-- A deletion, after the word DELETE. -/
def deletion (inner : Level) : Parser String := do
  keyword "FROM"
  let table ← tableFactor inner
  let others ← after? "USING" (tableFactor inner)
  let condition ← after? "WHERE" (canonically inner.expr)
  let returning ← returning? inner
  return "DELETE FROM " ++ table.canonical ++ spaced (others.map ("USING " ++ ·.canonical))
    ++ spaced (condition.map ("WHERE " ++ ·)) ++ spaced returning

/-- What a merge does with the rows of a match, after the word WHEN. -/
def mergeClause (inner : Level) : Parser String := do
  let unmatched ← keyword? "NOT"
  keyword "MATCHED"
  let condition ← after? "AND" (canonically inner.expr)
  keyword "THEN"
  let head := "WHEN " ++ mark unmatched "NOT" ++ "MATCHED"
    ++ spaced (condition.map ("AND " ++ ·)) ++ " THEN "
  match ← oneOf? ["UPDATE", "INSERT", "DELETE"] with
  | some "UPDATE" =>
    require (!unmatched) (refuse "UPDATE in NOT MATCHED merge clause")
    keyword "SET"
    return head ++ "UPDATE SET " ++ commaSeparated (← separated (assignment inner))
  | some "DELETE" =>
    require (!unmatched) (refuse "DELETE in NOT MATCHED merge clause")
    return head ++ "DELETE"
  | some _ =>
    require unmatched (refuse "INSERT in MATCHED merge clause")
    let names ← columns?
    keyword "VALUES"
    return head ++ "INSERT " ++ columnsText names ++ " " ++ (← valueRows inner).canonical
  | none => refuse "expected UPDATE, DELETE or INSERT in merge clause"

/-- A merge, after the word MERGE. It goes on up to a semicolon. -/
def merge (inner : Level) : Parser String := do
  let into ← keyword? "INTO"
  let table ← tableFactor inner
  keyword "USING"
  let source ← tableFactor inner
  keyword "ON"
  let condition ← canonically inner.expr
  let clauses ← many do
    if (← peek).all (·.isSymbol ";") then return none
    else
      keyword "WHEN"
      return some (← mergeClause inner)
  return "MERGE " ++ mark into "INTO" ++ table.canonical ++ " USING " ++ source.canonical
    ++ " ON " ++ condition ++ " " ++ " ".intercalate clauses

/-! ## Insertions inside queries -/

/-- An insertion in the place of a query. -/
def insertion? (inner : Level) : Parser (Option String) := do
  return (← after? "INSERT" (insertion inner)).map Statement.canonical

end RelQuery.Sql.Grammar
