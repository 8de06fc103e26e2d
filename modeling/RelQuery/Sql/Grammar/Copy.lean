/-
  Copies between tables and files, with the data that a copy from the standard input brings
  along.
-/
import RelQuery.Sql.Grammar.Table

namespace RelQuery.Sql.Grammar

open Sql.Parser

/-! ## Options -/

/-- A string in single quotes. -/
def inQuotes (value : String) : String := quoteWith stringQuote value

/-- A string of one character, in single quotes. -/
def quotedChar : Parser String := do
  let value ← stringLiteral
  require (value.utf8ByteSize = 1) (refuse ("Expect a char, found " ++ stringDetail value))
  return "'" ++ value ++ "'"

/-- A keyword that may be switched off. -/
def switch (k : String) : Parser String := do
  return k ++ if (← oneOf? ["TRUE", "FALSE"]) = some "FALSE" then " FALSE" else ""

/-- An option of a copy. -/
def copyOption : Parser String := do
  let k ← oneOfThe "option" ["FORMAT", "FREEZE", "DELIMITER", "NULL", "HEADER", "QUOTE",
    "ESCAPE", "FORCE_QUOTE", "FORCE_NOT_NULL", "FORCE_NULL", "ENCODING"]
  match k with
  | "FORMAT" => return "FORMAT " ++ (← ident).canonical
  | "FREEZE" | "HEADER" => switch k
  | "DELIMITER" | "QUOTE" | "ESCAPE" => return k ++ " " ++ (← quotedChar)
  | "NULL" | "ENCODING" => return k ++ " " ++ inQuotes (← stringLiteral)
  | _ => return k ++ " " ++ columnsText (← columns)

/-- An option of a copy in CSV format. -/
def csvOption : Parser String := do
  if ← keyword? "HEADER" then return "HEADER"
  else if ← keywords? ["FORCE", "QUOTE"] then return "FORCE QUOTE " ++ (← identList)
  else if ← keywords? ["FORCE", "NOT", "NULL"] then return "FORCE NOT NULL " ++ (← identList)
  else
    let k ← oneOf ["QUOTE", "ESCAPE"]
    let _ ← keyword? "AS"
    return k ++ " " ++ (← quotedChar)

/-- An option of a copy in the form without parentheses; the word CSV has options itself. -/
def bareCopyOption : Parser String := do
  let k ← oneOf ["BINARY", "DELIMITER", "NULL", "CSV"]
  match k with
  | "BINARY" => return k
  | "CSV" => return "CSV " ++ " ".intercalate (← many (attempt csvOption))
  | "NULL" =>
    let _ ← keyword? "AS"
    return k ++ " " ++ inQuotes (← stringLiteral)
  | _ =>
    let _ ← keyword? "AS"
    return k ++ " " ++ (← quotedChar)

/-! ## Data -/

/-- Cells of data up to a backslash with a period or to the end; nothing stands for NULL. A tab
or the end of a line ends a cell, and `\N` is a cell of its own. What the end of the text cuts
off is no cell. -/
def cells : Parser (List (Option String)) := do
  let (cells, _) ← iterate (fun (cells, content) => do
    match ← nextOfAll with
    | none => return none
    | some (.blank "\t") | some (.blank "\n") => return some (some content :: cells, "")
    | some (.symbol "\\") =>
      if ← symbol? "." then return none
      else match ← next with
        | some (.word "N" _) => return some (none :: cells, content)
        | _ => return some (cells, content)
    | some t => return some (cells, content ++ t.text)) (([] : List (Option String)), "")
  return cells.reverse

/-- Data with tabs between its cells, after the semicolon. -/
def dataText (cells : List (Option String)) : String :=
  if cells.isEmpty then ""
  else ";\n" ++ "\t".intercalate (cells.map (·.getD "\\N")) ++ "\n\\."

/-! ## Copies -/

/-- A copy between a table and a file, after the word COPY. A copy from the standard input has
its data behind a semicolon. -/
def copy : Parser String := do
  let table ← name
  let names ← columns?
  let direction ← oneOfThe "FROM or TO" ["FROM", "TO"]
  let place ← oneOf? ["STDIN", "STDOUT", "PROGRAM"]
  let target ← match place with
    | some "PROGRAM" => do pure ("PROGRAM " ++ inQuotes (← stringLiteral))
    | some k => pure k
    | none => do pure (inQuotes (← stringLiteral))
  let _ ← keyword? "WITH"
  let options ← parenthesized? (separated copyOption)
  let bareOptions ← many (attempt bareCopyOption)
  let data ← do
    if place = some "STDIN" then
      symbol ";"
      pure (dataText (← cells))
    else pure ""
  return "COPY " ++ Name.canonical table ++ columnsClause names ++ " " ++ direction ++ " "
    ++ target ++ spaced (options.map fun os => "(" ++ commaSeparated os ++ ")")
    ++ String.join (bareOptions.map (" " ++ ·)) ++ data

end RelQuery.Sql.Grammar
