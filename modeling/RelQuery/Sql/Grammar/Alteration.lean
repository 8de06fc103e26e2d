/-
  Changes of tables and indices.
-/
import RelQuery.Sql.Grammar.Table

namespace RelQuery.Sql.Grammar

open Sql.Parser

/-- A change of a column, after its name. -/
def alterColumn (inner : Level) : Parser String := do
  if ← keywords? ["SET", "NOT", "NULL"] then return "SET NOT NULL"
  else if ← keywords? ["DROP", "NOT", "NULL"] then return "DROP NOT NULL"
  else if ← keywords? ["SET", "DEFAULT"] then
    return "SET DEFAULT " ++ (← canonically inner.expr)
  else if ← keywords? ["DROP", "DEFAULT"] then return "DROP DEFAULT"
  else
    require (← either? (keywords? ["SET", "DATA", "TYPE"]) (keyword? "TYPE"))
      (expected "SET/DROP NOT NULL, SET DEFAULT, SET DATA TYPE after ALTER COLUMN")
    let type ← dataType
    let conversion ← after? "USING" (canonically inner.expr)
    return "SET DATA TYPE " ++ type.text ++ spaced (conversion.map ("USING " ++ ·))

/-- Partitions by their values. -/
def partitions (inner : Level) : Parser String := do
  return "PARTITION (" ++ (← parenthesized (canonicalList inner.expr)) ++ ")"

/-- What is added to a table. -/
def addition (inner : Level) : Parser String := do
  match ← tableConstraint? inner with
  | some c => return "ADD " ++ c.canonical
  | none =>
    let early ← keywords? ["IF", "NOT", "EXISTS"]
    if ← keyword? "PARTITION" then
      return "ADD " ++ mark early "IF NOT EXISTS" ++ (← partitions inner)
    else
      let marked ← keyword? "COLUMN"
      let late ← keywords? ["IF", "NOT", "EXISTS"]
      return "ADD " ++ mark marked "COLUMN" ++ mark (early || late) "IF NOT EXISTS"
        ++ (← column inner).canonical

/-- A new name for a constraint, a table or a column. -/
def newName : Parser String := do
  if ← keyword? "CONSTRAINT" then
    let old ← ident
    keyword "TO"
    return "RENAME CONSTRAINT " ++ old.canonical ++ " TO " ++ (← ident).canonical
  else if ← keyword? "TO" then return "RENAME TO " ++ Name.canonical (← name)
  else
    let _ ← keyword? "COLUMN"
    let old ← ident
    keyword "TO"
    return "RENAME COLUMN " ++ old.canonical ++ " TO " ++ (← ident).canonical

/-- What is removed from a table; the words PRIMARY KEY in front of a column have no meaning. -/
def removal (inner : Level) : Parser String := do
  if ← keywords? ["IF", "EXISTS", "PARTITION"] then
    return "DROP IF EXISTS " ++ (← partitions inner)
  else if ← keyword? "PARTITION" then return "DROP " ++ (← partitions inner)
  else
    let kind ← do
      if ← keyword? "CONSTRAINT" then pure "CONSTRAINT"
      else
        let _ ← keywords? ["PRIMARY", "KEY"]
        let _ ← keyword? "COLUMN"
        pure "COLUMN"
    let ifExists ← keywords? ["IF", "EXISTS"]
    let n ← ident
    let cascade ← keyword? "CASCADE"
    return "DROP " ++ kind ++ " " ++ mark ifExists "IF EXISTS" ++ n.canonical
      ++ trail cascade "CASCADE"

/-- A column with a new name, type and options. -/
def columnChange (inner : Level) : Parser String := do
  let _ ← keyword? "COLUMN"
  let old ← ident
  let new ← ident
  let type ← dataType
  let options ← many (columnOption? inner)
  return "CHANGE COLUMN " ++ old.canonical ++ " " ++ new.canonical ++ " " ++ type.text
    ++ String.join (options.map (" " ++ ·.canonical))

/-- A change of a table, after its name. -/
def alterTable (inner : Level) : Parser String := do
  if ← keyword? "ADD" then addition inner
  else if ← keyword? "RENAME" then newName
  else if ← keyword? "DROP" then removal inner
  else if ← keyword? "PARTITION" then
    let old ← partitions inner
    keywords ["RENAME", "TO", "PARTITION"]
    return old ++ " RENAME TO " ++ (← partitions inner)
  else if ← keyword? "CHANGE" then columnChange inner
  else
    require (← keyword? "ALTER") (expected "ADD, RENAME, PARTITION or DROP after ALTER TABLE")
    let _ ← keyword? "COLUMN"
    let n ← ident
    return "ALTER COLUMN " ++ n.canonical ++ " " ++ (← alterColumn inner)

/-- A change of a definition, after the word ALTER. -/
def alter (inner : Level) : Parser String := do
  if (← oneOf ["TABLE", "INDEX"]) = "TABLE" then
    let _ ← keyword? "ONLY"
    let n ← name
    return "ALTER TABLE " ++ Name.canonical n ++ " " ++ (← alterTable inner)
  else
    let n ← name
    require (← keyword? "RENAME") (expected "RENAME after ALTER INDEX")
    require (← keyword? "TO") (expected "TO after RENAME")
    return "ALTER INDEX " ++ Name.canonical n ++ " RENAME TO " ++ Name.canonical (← name)

end RelQuery.Sql.Grammar
