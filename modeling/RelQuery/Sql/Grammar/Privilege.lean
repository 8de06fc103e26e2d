/-
  Roles, and the privileges that they have.
-/
import RelQuery.Sql.Grammar.Table

namespace RelQuery.Sql.Grammar

open Sql.Parser

/-! ## Roles -/

/-- What a role may or may not do. -/
def rolePowers : List String :=
  ["SUPERUSER", "CREATEDB", "CREATEROLE", "INHERIT", "LOGIN", "REPLICATION", "BYPASSRLS"]

/-- All that can be said about a role, in canonical order. -/
def roleTopics : List String :=
  rolePowers ++ ["CONNECTION LIMIT", "PASSWORD", "VALID UNTIL", "IN ROLE", "IN GROUP", "ROLE",
    "USER", "ADMIN"]

/-- A power that a role is denied. -/
def deniedPower? : Parser (Option (String × String)) := do
  match (← peek).bind fun t => rolePowers.find? fun k => t.isKeyword ("NO" ++ k) with
  | some k =>
    let _ ← next
    return some (k, "NO" ++ k)
  | none => return none

/-- What is said next about a role: the topic and the text. -/
def roleOption? : Parser (Option (String × String)) := do
  let about (topic : String) (p : Parser String) : Parser (Option (String × String)) := do
    return some (topic, topic ++ " " ++ (← p))
  let value : Parser String := do return (← literal).canonical
  if let some k ← oneOf? rolePowers then return some (k, k)
  else if let some denied ← deniedPower? then return some denied
  else match ← oneOf? ["CONNECTION", "PASSWORD", "VALID", "IN", "ROLE", "USER", "ADMIN"] with
    | some "CONNECTION" =>
      keyword "LIMIT"
      about "CONNECTION LIMIT" numeral
    | some "PASSWORD" => about "PASSWORD" value
    | some "VALID" =>
      keyword "UNTIL"
      about "VALID UNTIL" value
    | some "IN" =>
      about ("IN " ++ (← oneOfThe "ROLE or GROUP after IN" ["ROLE", "GROUP"])) identList
    | some k => about k identList
    | none => return none

/-- All that is said about a role, each topic at most once. -/
def roleOptions : Parser (List (String × String)) :=
  iterate (fun said => do
    match ← roleOption? with
    | some (topic, text) =>
      let denied := if rolePowers.contains topic then " or NO" ++ topic else ""
      require (!said.any (·.1 = topic)) (refuse ("Found multiple " ++ topic ++ denied))
      return some ((topic, text) :: said)
    | none => return none) []

/-- The definition of roles, after the word ROLE. -/
def createRole : Parser String := do
  let ifNotExists ← keywords? ["IF", "NOT", "EXISTS"]
  let names ← separated name
  let _ ← keyword? "WITH"
  let said ← roleOptions
  return "CREATE ROLE " ++ mark ifNotExists "IF NOT EXISTS" ++ namesText names
    ++ String.join (roleTopics.map fun topic => spaced (said.lookup topic))

/-! ## Grants -/

/-- The privileges of a grant. -/
def privileges : Parser String := do
  if ← keyword? "ALL" then return "ALL" ++ if ← keyword? "PRIVILEGES" then " PRIVILEGES" else ""
  else
    let privilege := do
      let action ← oneOfThe "a privilege keyword"
        ["CONNECT", "CREATE", "DELETE", "EXECUTE", "INSERT", "REFERENCES", "SELECT",
          "TEMPORARY", "TRIGGER", "TRUNCATE", "UPDATE", "USAGE"]
      if ["INSERT", "REFERENCES", "SELECT", "UPDATE"].contains action then
        match ← columns? with
        | [] => return action
        | names => return action ++ " " ++ columnsText names
      else return action
    return commaSeparated (← separated privilege)

/-- What a grant is on. -/
def grantObjects : Parser String := do
  if ← keywords? ["ALL", "TABLES", "IN", "SCHEMA"] then
    return "ALL TABLES IN SCHEMA " ++ namesText (← separated name)
  else if ← keywords? ["ALL", "SEQUENCES", "IN", "SCHEMA"] then
    return "ALL SEQUENCES IN SCHEMA " ++ namesText (← separated name)
  else
    let kind ← oneOf? ["SEQUENCE", "SCHEMA", "TABLE"]
    let names ← separated name
    match kind with
    | some "SEQUENCE" => return "SEQUENCE " ++ namesText names
    | some "SCHEMA" => return "SCHEMA " ++ namesText names
    | _ => return namesText names

/-- A grant, after its first word. -/
def grant : Parser String := do
  let privileges ← privileges
  keyword "ON"
  let objects ← grantObjects
  keyword "TO"
  let grantees ← identList
  let passing ← keywords? ["WITH", "GRANT", "OPTION"]
  let grantor ← afterAll? ["GRANTED", "BY"] ident
  return "GRANT " ++ privileges ++ " ON " ++ objects ++ " TO " ++ grantees
    ++ trail passing "WITH GRANT OPTION"
    ++ spaced (grantor.map ("GRANTED BY " ++ ·.canonical))

/-- The end of a grant; the privileges that others have through it go with it or hinder it, but
not both. -/
def revoke : Parser String := do
  let privileges ← privileges
  keyword "ON"
  let objects ← grantObjects
  keyword "FROM"
  let grantees ← identList
  let grantor ← afterAll? ["GRANTED", "BY"] ident
  let cascade ← keyword? "CASCADE"
  let restrict ← keyword? "RESTRICT"
  require (!(cascade && restrict))
    (refuse "Cannot specify both CASCADE and RESTRICT in REVOKE")
  return "REVOKE " ++ privileges ++ " ON " ++ objects ++ " FROM " ++ grantees
    ++ spaced (grantor.map ("GRANTED BY " ++ ·.canonical))
    ++ if cascade then " CASCADE" else " RESTRICT"

end RelQuery.Sql.Grammar
