/-
  Statements, and the reader of whole texts.

  A text is read up to the end of its first statement; what follows only has to consist of
  tokens.
-/
import RelQuery.Sql.Grammar.Alteration
import RelQuery.Sql.Grammar.Change
import RelQuery.Sql.Grammar.Control
import RelQuery.Sql.Grammar.Copy
import RelQuery.Sql.Grammar.Definition
import RelQuery.Sql.Grammar.Upkeep
import RelQuery.Sql.Lexer

namespace RelQuery.Sql.Grammar

open Sql.Parser

/-- An explanation of a statement, or else of a table, after the first word. Explanations are
not explained. -/
def explanation (inner : Level) (word : String) : Parser Statement := do
  let analyzed ← keyword? "ANALYZE"
  let verbose ← keyword? "VERBOSE"
  let format ← after? "FORMAT" (oneOfThe "fileformat" ["TEXT", "GRAPHVIZ", "JSON"])
  match ← attempt inner.statement with
  | some (.explain ..) | some (.explainTable _) => refuse "Explain must be root of the plan"
  | some s =>
    return .explain (word ++ trail analyzed "ANALYZE"
      ++ trail verbose "VERBOSE" ++ spaced (format.map ("FORMAT " ++ ·))) s
  | none => return .explainTable (word ++ " " ++ Name.canonical (← name))

/-! ## Statements -/

/-- What follows the first word of a statement, by that word. -/
def statementAfter? (inner : Level) (word : String) : Option (Parser Statement) :=
  let other (p : Parser String) : Option (Parser Statement) := some do return .other (← p)
  match word with
  | "COMMENT" => other comment
  | "KILL" => other do
    let kind ← oneOf? ["CONNECTION", "QUERY", "MUTATION"]
    let id ← unsigned
    require (kind ≠ some "MUTATION")
      (expected "Unsupported type for KILL, allowed: CONNECTION | QUERY")
    return "KILL " ++ (kind.map (· ++ " ")).getD "" ++ toString id
  | "DESCRIBE" => some (explanation inner "DESCRIBE")
  | "EXPLAIN" => some (explanation inner "EXPLAIN")
  | "ANALYZE" => other (analyze inner)
  | "TRUNCATE" => other (truncate inner)
  | "MSCK" => other tableCheck
  | "CACHE" => other (cache inner)
  | "UNCACHE" => other uncache
  | "CREATE" => some (create inner)
  | "DROP" => some (drop inner)
  | "DISCARD" => other do
    let what ← oneOfThe "ALL, PLANS, SEQUENCES, TEMP or TEMPORARY after DISCARD"
      ["ALL", "PLANS", "SEQUENCES", "TEMP", "TEMPORARY"]
    return "DISCARD " ++ if what = "TEMPORARY" then "TEMP" else what
  | "DELETE" => other (deletion inner)
  | "INSERT" => some (insertion inner)
  | "UPDATE" => other (update inner)
  | "MERGE" => other (merge inner)
  | "COPY" => other copy
  | "DECLARE" => other (cursorDeclaration inner)
  | "FETCH" => other cursorFetch
  | "ALTER" => other (alter inner)
  | "CLOSE" => other do
    if ← keyword? "ALL" then return "CLOSE ALL" else return "CLOSE " ++ (← ident).canonical
  | "SET" => other (setting inner)
  | "SHOW" => some (showing inner)
  | "USE" => other do return "USE " ++ (← ident).canonical
  | "GRANT" => other grant
  | "REVOKE" => other revoke
  | "START" => other do
    keyword "TRANSACTION"
    return "START TRANSACTION" ++ (← transactionModes)
  | "BEGIN" => other do
    let _ ← oneOf? ["TRANSACTION", "WORK"]
    return "START TRANSACTION" ++ (← transactionModes)
  | "SAVEPOINT" => other do return "SAVEPOINT " ++ (← ident).canonical
  | "COMMIT" => other do return "COMMIT" ++ (← chain)
  | "ROLLBACK" => other do return "ROLLBACK" ++ (← chain)
  | "ASSERT" => other do
    let condition ← canonically inner.expr
    let message ← after? "AS" (canonically inner.expr)
    return "ASSERT " ++ condition ++ spaced (message.map ("AS " ++ ·))
  | "DEALLOCATE" => other do
    let marked ← keyword? "PREPARE"
    return "DEALLOCATE " ++ mark marked "PREPARE" ++ (← ident).canonical
  | "EXECUTE" => other (execution inner)
  | "PREPARE" => other (preparation inner)
  | _ => none

/-- A statement whose parts are one level deeper. -/
def statement (inner : Level) : Parser Statement := do
  match ← peek with
  | some (.symbol "(") => return .query (← inner.query)
  | some (.word text false) =>
    let k := text.toUpper
    if ["SELECT", "WITH", "VALUES"].contains k then return .query (← inner.query)
    else match statementAfter? inner k with
      | some rest => do
        let _ ← next
        rest
      | none => expected what
  | _ => expected what
where
  what : String := "an SQL statement"

/-! ## Texts -/

/-- What can be read at a level; a deeper level is there only once it is asked for. -/
def level : (depth : Nat) → Level
  | 0 => .bottom
  | depth + 1 =>
    { expr := deeper (delay fun _ => expression (level depth))
      query := deeper (delay fun _ => query (level depth) (insertion? (level depth)))
      statement := deeper (delay fun _ => statement (level depth)) }

/-- How deep statements, queries and expressions may be nested. -/
def maxDepth : Int := 50

/-- The first statement of a text and the tokens after it. All levels but that of the first
query come after a token, so the lowest one is never met. -/
def read (text : String) : Except SyntaxError (Statement × List Token) := do
  let tokens ← Lexer.tokens text.toList
  match (level (tokens.length + 2)).statement.run tokens maxDepth with
  | ⟨.ok statement, rest, _⟩ => return (statement, rest)
  | ⟨.error e, _, _⟩ => throw e

end RelQuery.Sql.Grammar
