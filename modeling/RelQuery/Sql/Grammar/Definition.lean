/-
  Definitions other than those of columns: creating and dropping what a database has.
-/
import RelQuery.Sql.Grammar.Privilege

namespace RelQuery.Sql.Grammar

open Sql.Parser

def createView (inner : Level) (orReplace : Bool) : Parser String := do
  let materialized ← keyword? "MATERIALIZED"
  keyword "VIEW"
  let n ← name
  let names ← columns?
  let options ← properties? "WITH"
  let clusters ← do
    if ← keyword? "CLUSTER" then
      keyword "BY"
      columns?
    else pure []
  keyword "AS"
  let q ← inner.query
  return "CREATE " ++ mark orReplace "OR REPLACE" ++ mark materialized "MATERIALIZED" ++ "VIEW "
    ++ Name.canonical n ++ spaced options ++ columnsClause names
    ++ (if clusters.isEmpty then "" else " CLUSTER BY " ++ columnsText clusters)
    ++ " AS " ++ q.canonical

/-- A table that a module provides. -/
def createVirtual : Parser String := do
  keyword "TABLE"
  let ifNotExists ← keywords? ["IF", "NOT", "EXISTS"]
  let n ← name
  keyword "USING"
  let provider ← ident
  let args ← columns?
  return "CREATE VIRTUAL TABLE " ++ mark ifNotExists "IF NOT EXISTS" ++ Name.canonical n
    ++ " USING " ++ provider.canonical ++ columnsClause args

def createIndex (inner : Level) (unique : Bool) : Parser String := do
  let ifNotExists ← keywords? ["IF", "NOT", "EXISTS"]
  let index ← name
  keyword "ON"
  let table ← name
  let method ← after? "USING" ident
  let keys ← parenthesized (separated (orderItem inner))
  return "CREATE " ++ mark unique "UNIQUE" ++ "INDEX " ++ mark ifNotExists "IF NOT EXISTS"
    ++ Name.canonical index ++ " ON " ++ Name.canonical table
    ++ (method.map fun m => " USING " ++ m.canonical ++ " ").getD ""
    ++ "(" ++ ",".intercalate (keys.map OrderItem.canonical) ++ ")"

def createSchema : Parser String := do
  let ifNotExists ← keywords? ["IF", "NOT", "EXISTS"]
  let owned (owner : Ident) : String := "AUTHORIZATION " ++ owner.canonical
  let head := "CREATE SCHEMA " ++ mark ifNotExists "IF NOT EXISTS"
  match ← after? "AUTHORIZATION" ident with
  | some owner => return head ++ owned owner
  | none =>
    let n ← name
    return head ++ Name.canonical n ++ spaced ((← after? "AUTHORIZATION" ident).map owned)

/-- A database and its places, of each kind the one named last. -/
def createDatabase : Parser String := do
  let ifNotExists ← keywords? ["IF", "NOT", "EXISTS"]
  let n ← name
  let places ← iterate (fun places => do
    match ← oneOf? ["LOCATION", "MANAGEDLOCATION"] with
    | some k => return some ((k, k ++ " '" ++ (← stringLiteral) ++ "'") :: places)
    | none => return none) []
  return "CREATE DATABASE " ++ mark ifNotExists "IF NOT EXISTS" ++ Name.canonical n
    ++ spaced (places.lookup "LOCATION") ++ spaced (places.lookup "MANAGEDLOCATION")

/-- A limit of a sequence, or that there is none. -/
def sequenceLimit? (k : String) : Parser (Option String) := do
  if ← keyword? k then return some (k ++ " " ++ (← numeral))
  else if ← keywords? ["NO", k] then return some ("NO " ++ k)
  else return none

/-- A number after a keyword, between which a filler may stand. -/
def sequenceNumber? (k filler : String) : Parser (Option String) :=
  after? k do
    let filled ← keyword? filler
    return k ++ " " ++ mark filled filler ++ (← numeral)

/-- Whether a sequence starts again at its end; a lone NO says nothing. -/
def sequenceCycle? : Parser (Option String) := do
  if ← keyword? "NO" then
    return if ← keyword? "CYCLE" then some "NO CYCLE" else none
  else return if ← keyword? "CYCLE" then some "CYCLE" else none

/-- The options of a sequence, which stand in this order. -/
def sequenceOptions : Parser String := do
  let increment ← sequenceNumber? "INCREMENT" "BY"
  let least ← sequenceLimit? "MINVALUE"
  let greatest ← sequenceLimit? "MAXVALUE"
  let start ← sequenceNumber? "START" "WITH"
  let cache ← after? "CACHE" numeral
  let cycle ← sequenceCycle?
  return spaced increment ++ spaced least ++ spaced greatest ++ spaced start
    ++ spaced (cache.map ("CACHE " ++ ·)) ++ spaced cycle

def createSequence (temporary : Bool) : Parser String := do
  let ifNotExists ← keywords? ["IF", "NOT", "EXISTS"]
  let n ← name
  let type ← after? "AS" dataType
  let options ← sequenceOptions
  let owner ← afterAll? ["OWNED", "BY"] do
    if ← keyword? "NONE" then return "NONE" else return Name.canonical (← name)
  return "CREATE " ++ mark temporary "TEMPORARY" ++ "SEQUENCE " ++ mark ifNotExists "IF NOT EXISTS"
    ++ Name.canonical n ++ spaced (type.map ("AS " ++ ·.text)) ++ options
    ++ spaced (owner.map ("OWNED BY " ++ ·))

/-- An argument of a function: a type, perhaps with a name in front of it. What looks like the
name of a type is the name of the argument, up to its first period. -/
def functionArgument (inner : Level) : Parser String := do
  let mode ← oneOf? ["IN", "OUT", "INOUT"]
  let first ← dataType
  let typed ← do
    match first.userName with
    | some n => pure (Name.canonical (n.take 1) ++ " " ++ (← dataType).text)
    | none => pure first.text
  let initial ← do
    if ← either? (keyword? "DEFAULT") (symbol? "=") then
      pure (some (← canonically inner.expr))
    else pure none
  return (mode.map (· ++ " ")).getD "" ++ typed ++ spaced (initial.map ("= " ++ ·))

/-- The arguments of a function in parentheses; none are no text. -/
def functionArguments (inner : Level) : Parser String := parenthesized do
  if ← isAhead (·.isSymbol ")") then return ""
  else return "(" ++ commaSeparated (← separated (functionArgument inner)) ++ ")"

/-- The text of a function; a tag between the dollars is left out. -/
def functionText : Parser String := do
  match ← peek with
  | some (.dollar _ value) =>
    let _ ← next
    return (Token.dollar "" value).text
  | _ => return "'" ++ (← stringLiteral) ++ "'"

/-- What is said about a function, in the order in which it is written. -/
structure FunctionBody where
  language : Option String := none
  behavior : Option String := none
  definition : Option String := none
  result : Option String := none

/-- One more thing said about a function; each may be said once. -/
def functionClause? (inner : Level) (body : FunctionBody) : Parser (Option FunctionBody) := do
  let repeatedly (what : String) : Parser Unit := refuse (what ++ " specified more than once")
  if ← keyword? "AS" then
    require body.definition.isNone (repeatedly "AS")
    return some { body with definition := some (" AS " ++ (← functionText)) }
  else if ← keyword? "LANGUAGE" then
    require body.language.isNone (repeatedly "LANGUAGE")
    return some { body with language := some (" LANGUAGE " ++ (← ident).canonical) }
  else match ← oneOf? ["IMMUTABLE", "STABLE", "VOLATILE"] with
    | some k =>
      require body.behavior.isNone (repeatedly "IMMUTABLE | STABLE | VOLATILE")
      return some { body with behavior := some (" " ++ k) }
    | none =>
      if ← keyword? "RETURN" then
        require body.result.isNone (repeatedly "RETURN")
        return some { body with result := some (" RETURN " ++ (← canonically inner.expr)) }
      else return none

def createFunction (inner : Level) (orReplace temporary : Bool) : Parser String := do
  let n ← name
  let args ← functionArguments inner
  let type ← after? "RETURNS" dataType
  let body ← iterate (functionClause? inner) {}
  return "CREATE " ++ mark orReplace "OR REPLACE" ++ mark temporary "TEMPORARY" ++ "FUNCTION "
    ++ Name.canonical n ++ args ++ spaced (type.map ("RETURNS " ++ ·.text))
    ++ String.join ([body.language, body.behavior, body.definition, body.result].map (·.getD ""))

/-- A definition, after the word CREATE. -/
def create (inner : Level) : Parser Statement := do
  let other (p : Parser String) : Parser Statement := do return .other (← p)
  let orReplace ← keywords? ["OR", "REPLACE"]
  let isLocal ← keyword? "LOCAL"
  let isGlobal ← keyword? "GLOBAL"
  let transient ← keyword? "TRANSIENT"
  let temporary := (← oneOf? ["TEMP", "TEMPORARY"]).isSome
  if ← keyword? "TABLE" then
    let scope := if isGlobal then ["GLOBAL"] else if isLocal then ["LOCAL"] else []
    return .createTable (← createTable inner orReplace
      (scope ++ (if temporary then ["TEMPORARY"] else [])
        ++ if transient then ["TRANSIENT"] else []))
  else if ← keywordAt 0 ["MATERIALIZED", "VIEW"] then other (createView inner orReplace)
  else if ← keyword? "EXTERNAL" then return .createTable (← createExternal inner orReplace)
  else if ← keyword? "FUNCTION" then other (createFunction inner orReplace temporary)
  else
    require (!orReplace)
      (expected "[EXTERNAL] TABLE or [MATERIALIZED] VIEW or FUNCTION after CREATE OR REPLACE")
    if ← keyword? "INDEX" then other (createIndex inner false)
    else if ← keywords? ["UNIQUE", "INDEX"] then other (createIndex inner true)
    else if ← keyword? "VIRTUAL" then other createVirtual
    else if ← keyword? "SCHEMA" then other createSchema
    else if ← keyword? "DATABASE" then other createDatabase
    else if ← keyword? "ROLE" then other createRole
    else
      require (← keyword? "SEQUENCE") (expected "an object type after CREATE")
      other (createSequence temporary)

/-- The removal of functions, which may be told apart by their arguments. -/
def dropFunction (inner : Level) : Parser String := do
  let ifExists ← keywords? ["IF", "EXISTS"]
  let functions ← separated do
    let n ← name
    if ← isAhead (·.isSymbol "(") then
      return Name.canonical n ++ (← functionArguments inner)
    else return Name.canonical n
  let behavior ← oneOf? ["CASCADE", "RESTRICT"]
  return "DROP FUNCTION" ++ trail ifExists "IF EXISTS" ++ " " ++ commaSeparated functions
    ++ spaced behavior

/-- A removal, after the word DROP. -/
def drop (inner : Level) : Parser Statement := do
  if ← keyword? "FUNCTION" then return .other (← dropFunction inner)
  let kind ← oneOfThe "TABLE, VIEW, INDEX, ROLE, SCHEMA, FUNCTION or SEQUENCE after DROP"
    ["TABLE", "VIEW", "INDEX", "ROLE", "SCHEMA", "SEQUENCE"]
  let ifExists ← keywords? ["IF", "EXISTS"]
  let names ← separated name
  let cascade ← keyword? "CASCADE"
  let restrict ← keyword? "RESTRICT"
  let purge ← keyword? "PURGE"
  require (!(cascade && restrict)) (refuse "Cannot specify both CASCADE and RESTRICT in DROP")
  require (kind ≠ "ROLE" || !(cascade || restrict || purge))
    (refuse "Cannot specify CASCADE, RESTRICT, or PURGE in DROP ROLE")
  let behavior := (if cascade then ["CASCADE"] else []) ++ (if restrict then ["RESTRICT"] else [])
    ++ if purge then ["PURGE"] else []
  if kind = "TABLE" then return .dropTable ⟨ifExists, names, behavior⟩
  else return .other (" ".intercalate
    (["DROP", kind] ++ (if ifExists then ["IF EXISTS"] else []) ++ [namesText names] ++ behavior))

end RelQuery.Sql.Grammar
