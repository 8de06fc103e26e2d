/-
  Statements about a session: what is shown and set, transactions, prepared statements and
  cursors.
-/
import RelQuery.Sql.Grammar.Table

namespace RelQuery.Sql.Grammar

open Sql.Parser

/-- A filter on the names that are shown. -/
def showFilter? (inner : Level) : Parser (Option String) := do
  if ← keyword? "LIKE" then
    return some ("LIKE " ++ quoteWith stringQuote (← stringLiteral))
  else if ← keyword? "ILIKE" then
    return some ("ILIKE " ++ doubled stringQuote (← stringLiteral))
  else return (← after? "WHERE" (canonically inner.expr)).map ("WHERE " ++ ·)

/-- The database in which something is, if it is named. -/
def database? : Parser (Option Ident) := do
  if (← oneOf? ["FROM", "IN"]).isSome then return some (← ident) else return none

/-- What is shown, after the word SHOW. -/
def showing (inner : Level) : Parser Statement := do
  let extended ← keyword? "EXTENDED"
  let full ← keyword? "FULL"
  if (← oneOf? ["COLUMNS", "FIELDS"]).isSome then
    let _ ← oneOf ["FROM", "IN"]
    let n ← name
    let database ← database?
    return .other ("SHOW " ++ mark extended "EXTENDED" ++ mark full "FULL" ++ "COLUMNS FROM "
      ++ Name.canonical (database.toList ++ n) ++ spaced (← showFilter? inner))
  else if ← keyword? "TABLES" then
    let database ← database?
    return .showTables ⟨extended, full, database, ← showFilter? inner⟩
  else if ← keyword? "FUNCTIONS" then
    return .other ("SHOW FUNCTIONS" ++ spaced (← showFilter? inner))
  else
    require (!(extended || full))
      (refuse "EXTENDED/FULL are not supported with this type of SHOW query")
    if ← keyword? "CREATE" then
      let kind ← oneOf ["TABLE", "TRIGGER", "FUNCTION", "PROCEDURE", "EVENT", "VIEW"]
      return .other ("SHOW CREATE " ++ kind ++ " " ++ Name.canonical (← name))
    else if ← keyword? "COLLATION" then
      return .other ("SHOW COLLATION" ++ spaced (← showFilter? inner))
    else
      let _ ← keyword? "VARIABLES"
      let names ← wordsAhead
      return .other (" ".intercalate ("SHOW" :: names.map Ident.canonical))

/-- Modes of a transaction, as text with a space in front. -/
def transactionModes : Parser String := do
  let mode? : Parser (Option String) := do
    if ← keywords? ["ISOLATION", "LEVEL"] then
      if ← keywords? ["READ", "UNCOMMITTED"] then return some "ISOLATION LEVEL READ UNCOMMITTED"
      else if ← keywords? ["READ", "COMMITTED"] then return some "ISOLATION LEVEL READ COMMITTED"
      else if ← keywords? ["REPEATABLE", "READ"] then
        return some "ISOLATION LEVEL REPEATABLE READ"
      else
        require (← keyword? "SERIALIZABLE") (expected "isolation level")
        return some "ISOLATION LEVEL SERIALIZABLE"
    else if ← keywords? ["READ", "ONLY"] then return some "READ ONLY"
    else if ← keywords? ["READ", "WRITE"] then return some "READ WRITE"
    else return none
  let (modes, _) ← iterate (fun (modes, required) => do
    match ← mode? with
    | some m => return some (modes ++ [m], ← symbol? ",")
    | none =>
      require (!required) (expected "transaction mode")
      return none) (([] : List String), false)
  return if modes.isEmpty then "" else " " ++ commaSeparated modes

/-- The role that a session takes. -/
def role : Parser String := do
  if ← keyword? "NONE" then return "NONE" else return (← ident).canonical

/-- What is set, after the word SET. -/
def setting (inner : Level) : Parser String := do
  let valueOf (what : String) : Parser String :=
    tryCatch (canonically inner.expr) fun _ => expected what
  let scope ← oneOf? ["SESSION", "LOCAL", "HIVEVAR"]
  if scope = some "HIVEVAR" then symbol ":"
  else if ← keyword? "ROLE" then
    return "SET " ++ (scope.map (· ++ " ")).getD "" ++ "ROLE " ++ (← role)
  let head := "SET " ++ mark (scope = some "LOCAL") "LOCAL"
  let target ← do
    if ← keywords? ["TIME", "ZONE"] then pure "TIMEZONE" else pure (Name.canonical (← name))
  if ← either? (symbol? "=") (keyword? "TO") then
    let values ← separated (valueOf "variable value")
    return head ++ (if scope = some "HIVEVAR" then "HIVEVAR:" else "") ++ target
      ++ " = " ++ commaSeparated values
  else if target.toUpper = "TIMEZONE" then
    return head ++ "TIME ZONE " ++ (← valueOf "timezone value")
  else if target = "CHARACTERISTICS" then
    keywords ["AS", "TRANSACTION"]
    return "SET SESSION CHARACTERISTICS AS TRANSACTION" ++ (← transactionModes)
  else
    require (target = "TRANSACTION" && scope.isNone) (expected "equals sign or TO")
    match ← after? "SNAPSHOT" literal with
    | some snapshot => return "SET TRANSACTION SNAPSHOT " ++ snapshot.canonical
    | none => return "SET TRANSACTION" ++ (← transactionModes)

/-- Whether a transaction is followed by another one. -/
def chain : Parser String := do
  let _ ← oneOf? ["TRANSACTION", "WORK"]
  if ← keyword? "AND" then
    let negated ← keyword? "NO"
    keyword "CHAIN"
    return if negated then "" else " AND CHAIN"
  else return ""

/-- A cursor, after the word DECLARE. -/
def cursorDeclaration (inner : Level) : Parser String := do
  let n ← ident
  let binary ← keyword? "BINARY"
  let sensitivity ← oneOf? ["INSENSITIVE", "ASENSITIVE"]
  let scroll ← do
    if ← keyword? "SCROLL" then pure "SCROLL "
    else if ← keywords? ["NO", "SCROLL"] then pure "NO SCROLL "
    else pure ""
  keyword "CURSOR"
  let hold ← oneOf? ["WITH", "WITHOUT"]
  if hold.isSome then keyword "HOLD"
  keyword "FOR"
  let q ← inner.query
  return "DECLARE " ++ n.canonical ++ " " ++ mark binary "BINARY"
    ++ (sensitivity.map (· ++ " ")).getD "" ++ scroll ++ "CURSOR"
    ++ spaced (hold.map (· ++ " HOLD")) ++ " FOR " ++ q.canonical

/-- Which rows a cursor is asked for. -/
def fetchDirection : Parser String := do
  match ← oneOf? ["NEXT", "PRIOR", "FIRST", "LAST", "ABSOLUTE", "RELATIVE", "FORWARD",
    "BACKWARD", "ALL"] with
  | some "ABSOLUTE" => return "ABSOLUTE " ++ (← numeral)
  | some "RELATIVE" => return "RELATIVE " ++ (← numeral)
  | some "FORWARD" =>
    if ← keyword? "ALL" then return "FORWARD ALL" else return "FORWARD " ++ (← numeral)
  | some "BACKWARD" =>
    if ← keyword? "ALL" then return "BACKWARD ALL" else return "BACKWARD " ++ (← numeral)
  | some k => return k
  | none => numeral

/-- What is asked of a cursor, after the word FETCH. -/
def cursorFetch : Parser String := do
  let direction ← fetchDirection
  let _ ← oneOf ["FROM", "IN"]
  let n ← ident
  let target ← after? "INTO" name
  return "FETCH " ++ direction ++ " IN " ++ n.canonical
    ++ spaced (target.map ("INTO " ++ Name.canonical ·))

/-- A prepared statement's name and arguments. -/
def execution (inner : Level) : Parser String := do
  let n ← ident
  let args ← parenthesized? (canonicalList inner.expr)
  return "EXECUTE " ++ n.canonical ++ (args.map fun a => "(" ++ a ++ ")").getD ""

def preparation (inner : Level) : Parser String := do
  let n ← ident
  let types ← parenthesized? (separated dataType)
  keyword "AS"
  let prepared ← inner.statement
  return "PREPARE " ++ n.canonical ++ " "
    ++ (types.map fun ts => "(" ++ commaSeparated (ts.map (·.text)) ++ ") ").getD ""
    ++ "AS " ++ prepared.canonical

end RelQuery.Sql.Grammar
