/-
  Definitions of tables: columns with their options, constraints, and what may follow them.
-/
import RelQuery.Sql.Grammar.Query

namespace RelQuery.Sql.Grammar

open Sql.Parser

/-! ## Constraints -/

/-- What happens to referring rows. -/
def referentialAction : Parser String := do
  if ← keyword? "RESTRICT" then return "RESTRICT"
  else if ← keyword? "CASCADE" then return "CASCADE"
  else if ← keywords? ["SET", "NULL"] then return "SET NULL"
  else if ← keywords? ["NO", "ACTION"] then return "NO ACTION"
  else
    require (← keywords? ["SET", "DEFAULT"])
      (expected "one of RESTRICT, CASCADE, SET NULL, NO ACTION or SET DEFAULT")
    return "SET DEFAULT"

/-- The actions on deletes and updates, each at most once and in either order. -/
def referentialActions : Parser String := do
  let action? (event : String) (old : Option String) : Parser (Option String) := do
    if old.isSome then return old
    else if ← keywords? ["ON", event] then
      return some ("ON " ++ event ++ " " ++ (← referentialAction))
    else return none
  let deletion ← action? "DELETE" none
  let update ← action? "UPDATE" none
  let deletion ← action? "DELETE" deletion
  return spaced deletion ++ spaced update

/-- A condition in parentheses, as text. -/
def check (inner : Level) : Parser String := do
  return "CHECK (" ++ (← parenthesized (canonically inner.expr)) ++ ")"

/-- A constraint on a table, if one comes next. -/
def tableConstraint? (inner : Level) : Parser (Option TableConstraint) := do
  let constraint ← after? "CONSTRAINT" ident
  let named := constraintName constraint
  if ← keyword? "PRIMARY" then
    keyword "KEY"
    return some (.primaryKey constraint (← columns))
  else if ← keyword? "UNIQUE" then
    return some (.other (named ++ "UNIQUE " ++ columnsText (← columns)))
  else if ← keyword? "FOREIGN" then
    keyword "KEY"
    let own ← columns
    keyword "REFERENCES"
    let table ← name
    let others ← columns
    let actions ← referentialActions
    return some (.other (named ++ "FOREIGN KEY " ++ columnsText own ++ " REFERENCES "
      ++ Name.canonical table ++ columnsText others ++ actions))
  else if ← keyword? "CHECK" then return some (.other (named ++ (← check inner)))
  else
    require constraint.isNone (expected "PRIMARY, UNIQUE, FOREIGN, or CHECK")
    return none

/-! ## Columns -/

/-- Words of other dialects between options; they are read and have no meaning. -/
def foreignOptions : Parser Unit := do
  let _ ← keyword? "AUTO_INCREMENT"
  let _ ← keyword? "AUTOINCREMENT"
  let _ ← keywords? ["ON", "UPDATE"]

/-- An option of a column, if one comes next. -/
def columnOption? (inner : Level) : Parser (Option ColumnOption) := do
  let other (text : String) : Parser (Option ColumnOption) := return some (.other text)
  if ← keywords? ["CHARACTER", "SET"] then other ("CHARACTER SET " ++ Name.canonical (← name))
  else if ← keywords? ["NOT", "NULL"] then other "NOT NULL"
  else if ← keyword? "COMMENT" then
    match ← next with
    | some (.string value) => other ("COMMENT " ++ quoteWith stringQuote value)
    | found => unexpected found "string"
  else if ← keyword? "NULL" then other "NULL"
  else if ← keyword? "DEFAULT" then other ("DEFAULT " ++ (← canonically inner.expr))
  else if ← keywords? ["PRIMARY", "KEY"] then return some .primaryKey
  else if ← keyword? "UNIQUE" then other "UNIQUE"
  else if ← keyword? "REFERENCES" then
    let table ← name
    let names ← columns?
    let actions ← referentialActions
    other ("REFERENCES " ++ Name.canonical table ++ columnsClause names ++ actions)
  else if ← keyword? "CHECK" then other (← check inner)
  else
    foreignOptions
    return none

/-- An option with the name of its constraint, if one comes next. -/
def namedOption? (inner : Level) : Parser (Option (Option Ident × ColumnOption)) := do
  let constraint ← after? "CONSTRAINT" ident
  match ← columnOption? inner with
  | some option => return some (constraint, option)
  | none =>
    require constraint.isNone (expected "constraint details after CONSTRAINT <name>")
    return none

def column (inner : Level) : Parser Column := do
  let n ← ident
  let type ← dataType
  let collation ← after? "COLLATE" name
  return ⟨n, type, collation, ← many (namedOption? inner)⟩

/-- A column or a constraint. -/
def tableElement (inner : Level) : Parser (Column ⊕ TableConstraint) := do
  match ← tableConstraint? inner with
  | some c => return .inr c
  | none =>
    require (← isAhead fun t => t matches .word _ _)
      (expected "column name or constraint definition")
    return .inl (← column inner)

/-- Columns and constraints up to the closing parenthesis, in front of which a comma may
stand. -/
def tableElements (inner : Level) : Parser (List (Column ⊕ TableConstraint)) := do
  let element : Parser ((Column ⊕ TableConstraint) × Bool) := do
    let e ← tableElement inner
    let comma ← symbol? ","
    let last ← symbol? ")"
    require (comma || last) (expected "',' or ')' after column definition")
    return (e, last)
  let (first, last) ← element
  let (elements, _) ← iterate (fun (elements, last) => do
    if last then return none
    else
      let (e, last) ← element
      return some (elements ++ [e], last)) ([first], last)
  return elements

/-- The columns and constraints of a table; there need not be any. -/
def tableBody (inner : Level) : Parser (List Column × List TableConstraint) := do
  if ← symbol? "(" then
    if ← symbol? ")" then return ([], [])
    let elements ← tableElements inner
    return (elements.filterMap (·.getLeft?), elements.filterMap (·.getRight?))
  else return ([], [])

/-! ## Properties and storage -/

/-- A property: a name with a literal. -/
def property : Parser String := do
  let key ← ident
  symbol "="
  return key.canonical ++ " = " ++ (← literal).canonical

/-- Properties in parentheses, as text. -/
def propertiesText : Parser String := do
  return "(" ++ commaSeparated (← parenthesized (separated property)) ++ ")"

/-- Properties after a keyword. -/
def properties? (k : String) : Parser (Option String) :=
  after? k do return k ++ " " ++ (← propertiesText)

/-- A word after keywords and an equals sign. -/
def wordProperty? (ks : List String) : Parser (Option String) :=
  afterAll? ks do
    symbol "="
    return " ".intercalate ks ++ "=" ++ (← wordIdent "identifier").text

/-- The format of a file. -/
def fileFormat : Parser String :=
  oneOfThe "fileformat"
    ["TEXTFILE", "SEQUENCEFILE", "ORC", "PARQUET", "AVRO", "RCFILE", "JSONFILE"]

/-- How and where rows are stored, as clauses. -/
structure Storage where
  rowFormat : Option String := none
  fileFormat : Option String := none
  location : Option String := none

/-- The clauses in canonical order. -/
def Storage.clauses (s : Storage) : List String :=
  s.rowFormat.toList ++ s.fileFormat.toList ++ s.location.toList

/-- A format of rows, after the word ROW. -/
def rowFormat : Parser String := do
  keyword "FORMAT"
  match ← oneOf? ["SERDE", "DELIMITED"] with
  | some "SERDE" => return "ROW FORMAT SERDE '" ++ (← stringLiteral) ++ "'"
  | _ => return "ROW FORMAT DELIMITED"

/-- Goes on with the next clause about storage; a later one of a kind replaces an earlier
one. -/
def storageClause? (inner : Level) (s : Storage) : Parser (Option Storage) := do
  match ← oneOf? ["ROW", "STORED", "LOCATION"] with
  | some "ROW" => return some { s with rowFormat := some (← rowFormat) }
  | some "STORED" =>
    keyword "AS"
    let format ← do
      if ← keyword? "INPUTFORMAT" then
        let input ← canonically inner.expr
        keyword "OUTPUTFORMAT"
        pure ("INPUTFORMAT " ++ input ++ " OUTPUTFORMAT " ++ (← canonically inner.expr))
      else fileFormat
    return some { s with fileFormat := some ("STORED AS " ++ format) }
  | some _ => return some { s with location := some ("LOCATION '" ++ (← stringLiteral) ++ "'") }
  | none => return none

/-- The clauses about storage; first the columns by which the table is partitioned. -/
def storage (inner : Level) : Parser (List String) := do
  let partitions ← afterAll? ["PARTITIONED", "BY"] (parenthesized (separated (column inner)))
  let partitionClause := partitions.map fun columns =>
    "PARTITIONED BY (" ++ commaSeparated (columns.map Column.canonical) ++ ")"
  return partitionClause.toList ++ (← iterate (storageClause? inner) {}).clauses

/-! ## Definitions -/

/-- A name, or nothing if something else stands where one of its parts should; that is passed
over then. -/
def looseName : Parser (Option Name) := do
  let (parts, incomplete) ← iterate (fun (parts, incomplete) => do
    if !incomplete then return none
    else match ← next with
      | some (.word text quoted) => return some (identOf text quoted :: parts, ← symbol? ".")
      | some (.string value) =>
        return some (⟨value, some stringQuote⟩ :: parts, ← symbol? ".")
      | _ => return none) (([] : List Ident), true)
  return if incomplete then none else some parts.reverse

/-- The cluster on which a table is defined; braces in its name are put in quotes. -/
def clusterClause : Parser String := do
  let cluster ← match ← next with
    | some (.string value) => pure value
    | some (.word text quoted) => pure (Token.word text quoted).text
    | found => unexpected found "identifier or cluster literal"
  return "ON CLUSTER " ++ String.join (cluster.toList.map fun c =>
    if c = '\x7b' then "'\x7b" else if c = '\x7d' then "\x7d'" else String.singleton c)

/-- The names by which rows are ordered; a single one needs no parentheses. -/
def orderingColumns : Parser String := do
  let names ← do
    if ← symbol? "(" then
      let names ← if ← isAhead (·.isSymbol ")") then pure [] else separated ident
      symbol ")"
      pure names
    else pure [← ident]
  return "ORDER BY " ++ columnsText names

/-- What becomes of a temporary table at the end of a transaction. -/
def commitClause? : Parser (Option String) := do
  if ← keywords? ["ON", "COMMIT", "DELETE", "ROWS"] then return some "ON COMMIT DELETE ROWS"
  else if ← keywords? ["ON", "COMMIT", "PRESERVE", "ROWS"] then
    return some "ON COMMIT PRESERVE ROWS"
  else if ← keywords? ["ON", "COMMIT", "DROP"] then return some "ON COMMIT DROP"
  else return none

/-- A definition, after the word TABLE and what stands in front of it. -/
def createTable (inner : Level) (orReplace : Bool) (qualifiers : List String) :
    Parser CreateTable := do
  let ifNotExists ← keywords? ["IF", "NOT", "EXISTS"]
  let n ← name
  let cluster ← afterAll? ["ON", "CLUSTER"] clusterClause
  let like ← do
    if (← oneOf? ["LIKE", "ILIKE"]).isSome then looseName else pure none
  let clone ← do
    if ← keyword? "CLONE" then looseName else pure none
  let (columns, constraints) ← tableBody inner
  let withoutRowId ← keywords? ["WITHOUT", "ROWID"]
  let storage ← storage inner
  let options ← properties? "WITH"
  let tableProperties ← properties? "TBLPROPERTIES"
  let engine ← wordProperty? ["ENGINE"]
  let ordering ← afterAll? ["ORDER", "BY"] orderingColumns
  let source ← after? "AS" inner.query
  let charset ← wordProperty? ["DEFAULT", "CHARSET"]
  let collation ← wordProperty? ["COLLATE"]
  let commit ← commitClause?
  return {
    orReplace, qualifiers, ifNotExists, name := n, cluster, columns, constraints, withoutRowId
    like, clone, source
    clauses := storage ++ tableProperties.toList ++ options.toList ++ engine.toList
      ++ ordering.toList
    closing := charset.toList ++ collation.toList ++ commit.toList }

/-- A definition of a table kept elsewhere, after the word EXTERNAL. -/
def createExternal (inner : Level) (orReplace : Bool) : Parser CreateTable := do
  keyword "TABLE"
  let ifNotExists ← keywords? ["IF", "NOT", "EXISTS"]
  let n ← name
  let (columns, constraints) ← tableBody inner
  let storage ← storage inner
  let tableProperties ← properties? "TBLPROPERTIES"
  return {
    orReplace, qualifiers := ["EXTERNAL"], ifNotExists, name := n, cluster := none, columns
    constraints, withoutRowId := false, like := none, clone := none, source := none
    clauses := storage ++ tableProperties.toList, closing := [] }

end RelQuery.Sql.Grammar
