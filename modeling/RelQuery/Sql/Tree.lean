/-
  Syntax trees of statements, and their canonical text.

  Only what can become a request has a structure of its own; every other form is kept as its
  canonical text: keywords in upper case, single spaces, names and literals as written. A
  statement keeps all its clauses, also those that have no effect.
-/
import RelQuery.Sql.Token
import RelQuery.Datum

namespace RelQuery.Sql

/-- Texts with commas between them. -/
def commaSeparated (texts : List String) : String := ", ".intercalate texts

/-- A clause in front of which a space stands, if it is there. -/
def spaced (clause : Option String) : String :=
  match clause with
  | some text => " " ++ text
  | none => ""

/-- Words with a space behind them, if they were read. -/
def mark (present : Bool) (words : String) : String := if present then words ++ " " else ""

/-- Words with a space in front of them, if they were read. -/
def trail (present : Bool) (words : String) : String := if present then " " ++ words else ""

/-! ## Names and literals -/

/-- A name with the quotes it was written in. -/
structure Ident where
  text : String
  quote : Option Char := none
  deriving DecidableEq, Repr

def Ident.canonical (i : Ident) : String :=
  match i.quote with
  | some q => quoteWith q i.text
  | none => i.text

/-- A name with its qualifiers. -/
abbrev Name := List Ident

def Name.canonical (n : Name) : String := ".".intercalate (List.map Ident.canonical n)

/-- Names with commas between them, as text. -/
def namesText (names : List Name) : String := commaSeparated (names.map Name.canonical)

/-- Plain names in parentheses, as text. -/
def columnsText (names : List Ident) : String :=
  "(" ++ commaSeparated (names.map Ident.canonical) ++ ")"

/-- Plain names in parentheses behind a space, as text; nothing when there are none. -/
def columnsClause (names : List Ident) : String :=
  if names.isEmpty then "" else " " ++ columnsText names

inductive Literal where
  /-- A decimal number without sign. -/
  | number (digits : String) (long : Bool)
  | string (value : String)
  /-- Any other literal, by its text. -/
  | other (text : String)
  deriving DecidableEq, Repr

def Literal.canonical : Literal → String
  | number digits long => digits ++ if long then "L" else ""
  | string value => quoteWith stringQuote value
  | other text => text

/-! ## Expressions -/

inductive UnaryOp where
  | minus
  | not
  /-- Any other prefix operator. -/
  | symbol (text : String)
  deriving DecidableEq, Repr

/-- An operator in front of its operand; a word needs a space. -/
def UnaryOp.canonical : UnaryOp → String
  | minus => "-"
  | not => "NOT "
  | symbol text => text

inductive BinaryOp where
  | and
  | eq
  /-- Any other infix operator. -/
  | symbol (text : String)
  deriving DecidableEq, Repr

def BinaryOp.canonical : BinaryOp → String
  | and => "AND"
  | eq => "="
  | symbol text => text

inductive Expr where
  | ident (name : Ident)
  | compound (names : List Ident)
  | literal (value : Literal)
  | nested (inner : Expr)
  | unary (op : UnaryOp) (operand : Expr)
  | binary (op : BinaryOp) (left right : Expr)
  /-- Any other expression, by its text. -/
  | form (text : String)
  deriving DecidableEq, Repr

def Expr.canonical : Expr → String
  | ident name => name.canonical
  | compound names => Name.canonical names
  | literal value => value.canonical
  | nested inner => "(" ++ inner.canonical ++ ")"
  | unary op operand => op.canonical ++ operand.canonical
  | binary op left right => left.canonical ++ " " ++ op.canonical ++ " " ++ right.canonical
  | form text => text

/-! ## Queries -/

inductive SelectItem where
  | wildcard
  /-- All attributes of one relation. -/
  | qualified (name : Name)
  | plain (value : Expr)
  | aliased (value : Expr) (as : Ident)
  deriving DecidableEq, Repr

def SelectItem.canonical : SelectItem → String
  | wildcard => "*"
  | qualified name => Name.canonical name ++ ".*"
  | plain value => value.canonical
  | aliased value as => value.canonical ++ " AS " ++ as.canonical

/-- An entry of a list of tables, joins apart. -/
inductive TableFactor where
  /-- A table with its arguments, alias and hints, which are clauses as text. -/
  | table (name : Name) (args as hints : Option String)
  /-- A subquery, a table function or joins in parentheses, by text. -/
  | other (text : String)
  deriving DecidableEq, Repr

def TableFactor.canonical : TableFactor → String
  | table name args as hints =>
    Name.canonical name ++ args.getD "" ++ spaced as ++ spaced hints
  | other text => text

/-- A table with what is joined to it by JOIN, as text. -/
structure TableWithJoins where
  factor : TableFactor
  joins : List String
  deriving DecidableEq, Repr

def TableWithJoins.canonical (t : TableWithJoins) : String :=
  String.join (t.factor.canonical :: t.joins.map (" " ++ ·))

/-- An entry of an ORDER BY list; what follows the expression is a text. -/
structure OrderItem where
  value : Expr
  direction : Option String
  deriving DecidableEq, Repr

def OrderItem.canonical (o : OrderItem) : String := o.value.canonical ++ spaced o.direction

structure Select where
  distinct : Bool
  top : Option String
  projection : List SelectItem
  into : Option String
  tables : List TableWithJoins
  lateralViews : List String
  selection : Option Expr
  groupBy : List String
  clusterBy : List String
  distributeBy : List String
  sortBy : List String
  having : Option String
  qualify : Option String
  deriving DecidableEq, Repr

/-- A clause with a list, unless the list is empty. -/
def listClause (keyword : String) (texts : List String) : Option String :=
  if texts.isEmpty then none else some (keyword ++ " " ++ commaSeparated texts)

def Select.canonical (s : Select) : String :=
  String.join <| List.flatten
    [ [if s.distinct then "SELECT DISTINCT" else "SELECT", spaced s.top, " ",
        commaSeparated (s.projection.map SelectItem.canonical), spaced s.into,
        spaced (listClause "FROM" (s.tables.map TableWithJoins.canonical))],
      s.lateralViews.map (" " ++ ·),
      [spaced (s.selection.map ("WHERE " ++ ·.canonical)),
        spaced (listClause "GROUP BY" s.groupBy),
        spaced (listClause "CLUSTER BY" s.clusterBy),
        spaced (listClause "DISTRIBUTE BY" s.distributeBy),
        spaced (listClause "SORT BY" s.sortBy),
        spaced (s.having.map ("HAVING " ++ ·)), spaced (s.qualify.map ("QUALIFY " ++ ·))] ]

inductive QueryBody where
  | select (s : Select)
  /-- Rows of expressions; a list of rows may be marked by the word ROW. -/
  | values (marked : Bool) (rows : List (List Expr))
  /-- A set operation, a query in parentheses or a change of a table, by text. -/
  | other (text : String)
  deriving DecidableEq, Repr

def QueryBody.canonical : QueryBody → String
  | select s => s.canonical
  | values marked rows =>
    "VALUES " ++ commaSeparated (rows.map fun row =>
      (if marked then "ROW(" else "(") ++ commaSeparated (row.map Expr.canonical) ++ ")")
  | other text => text

structure Query where
  /-- The WITH clause. -/
  ctes : Option String
  body : QueryBody
  orderBy : List OrderItem
  limit : Option String
  offset : Option String
  fetch : Option String
  locks : List String
  deriving DecidableEq, Repr

/-- A query that is nothing but its body. -/
def Query.ofBody (ctes : Option String) (body : QueryBody) : Query :=
  ⟨ctes, body, [], none, none, none, []⟩

def Query.canonical (q : Query) : String :=
  String.join
    [(q.ctes.map (· ++ " ")).getD "", q.body.canonical,
      spaced (listClause "ORDER BY" (q.orderBy.map OrderItem.canonical)), spaced q.limit,
      spaced q.offset, spaced q.fetch,
      if q.locks.isEmpty then "" else " " ++ " ".intercalate q.locks]

/-! ## Tables -/

/-- Kinds of data types: those that an attribute can be of, and all others by their names. -/
inductive DataType.Kind where
  | tinyInt
  | smallInt
  | int
  | integer
  | bigInt
  | varchar
  | char
  | text
  | string
  | other (name : String)
  deriving DecidableEq, Repr

def DataType.Kind.name : DataType.Kind → String
  | tinyInt => "TinyInt"
  | smallInt => "SmallInt"
  | int => "Int"
  | integer => "Integer"
  | bigInt => "BigInt"
  | varchar => "Varchar"
  | char => "Char"
  | text => "Text"
  | string => "String"
  | other name => name

/-- A data type as written. -/
structure DataType where
  text : String
  kind : DataType.Kind
  /-- What a refusal says after the kind. -/
  arguments : String := ""
  /-- The name of the type, unless it is a keyword. -/
  userName : Option Name := none
  deriving DecidableEq, Repr

/-- How a refusal names the type. -/
def DataType.detail (t : DataType) : String := t.kind.name ++ t.arguments

inductive ColumnOption where
  | primaryKey
  | other (text : String)
  deriving DecidableEq, Repr

def ColumnOption.canonical : ColumnOption → String
  | primaryKey => "PRIMARY KEY"
  | other text => text

structure Column where
  name : Ident
  type : DataType
  /-- The COLLATE clause, which the canonical text leaves out. -/
  collation : Option Name
  /-- The options, each perhaps with the name of its constraint. -/
  options : List (Option Ident × ColumnOption)
  deriving DecidableEq, Repr

/-- The name of a constraint, in front of it. -/
def constraintName (name : Option Ident) : String :=
  match name with
  | some n => "CONSTRAINT " ++ n.canonical ++ " "
  | none => ""

def Column.canonical (c : Column) : String :=
  String.join <|
    [c.name.canonical, " ", c.type.text]
      ++ c.options.map fun (name, option) => " " ++ constraintName name ++ option.canonical

inductive TableConstraint where
  | primaryKey (name : Option Ident) (columns : List Ident)
  | other (text : String)
  deriving DecidableEq, Repr

def TableConstraint.canonical : TableConstraint → String
  | primaryKey name columns =>
    constraintName name ++ "PRIMARY KEY (" ++ commaSeparated (columns.map Ident.canonical) ++ ")"
  | other text => text

structure CreateTable where
  orReplace : Bool
  /-- Words on where and for how long there is such a table. -/
  qualifiers : List String
  ifNotExists : Bool
  name : Name
  /-- The cluster that has the table, as a clause. -/
  cluster : Option String
  columns : List Column
  constraints : List TableConstraint
  withoutRowId : Bool
  /-- The table whose columns are taken over. -/
  like : Option Name
  /-- The table whose rows are taken over too. -/
  clone : Option Name
  /-- The clauses in front of the query. -/
  clauses : List String
  /-- The query that fills the table. -/
  source : Option Query
  /-- The clauses behind the query. -/
  closing : List String
  deriving DecidableEq, Repr

/-- The columns and constraints in parentheses, which may only be missing if another table or a
query says what is in the table. -/
def CreateTable.body (t : CreateTable) : String :=
  let elements := t.columns.map Column.canonical ++ t.constraints.map TableConstraint.canonical
  if elements.isEmpty && (t.source.isSome || t.like.isSome || t.clone.isSome) then ""
  else " (" ++ commaSeparated elements ++ ")"

def CreateTable.canonical (t : CreateTable) : String :=
  String.join <| List.flatten
    [ ["CREATE ", mark t.orReplace "OR REPLACE"], t.qualifiers.map (· ++ " "),
      ["TABLE ", mark t.ifNotExists "IF NOT EXISTS", Name.canonical t.name, spaced t.cluster,
        t.body, trail t.withoutRowId "WITHOUT ROWID",
        spaced (t.like.map ("LIKE " ++ Name.canonical ·)),
        spaced (t.clone.map ("CLONE " ++ Name.canonical ·))],
      t.clauses.map (" " ++ ·),
      [spaced (t.source.map ("AS " ++ ·.canonical))],
      t.closing.map (" " ++ ·) ]

structure Insert where
  /-- The words between INSERT and the table's name. -/
  head : String
  name : Name
  columns : List Ident
  /-- The PARTITION clause. -/
  partition : Option String
  /-- The columns after that clause. -/
  laterColumns : List Ident
  source : Query
  onConflict : Option String
  returning : Option String
  deriving DecidableEq, Repr

def Insert.canonical (i : Insert) : String :=
  String.join
    [i.head, " ", Name.canonical i.name, columnsClause i.columns, spaced i.partition,
      columnsClause i.laterColumns, " ", i.source.canonical, spaced i.onConflict,
      spaced i.returning]

structure DropTable where
  ifExists : Bool
  names : List Name
  /-- The words after the names. -/
  behavior : List String
  deriving DecidableEq, Repr

def DropTable.canonical (d : DropTable) : String :=
  String.join <|
    ["DROP TABLE ", mark d.ifExists "IF EXISTS", namesText d.names]
      ++ d.behavior.map (" " ++ ·)

/-! ## Statements -/

structure ShowTables where
  extended : Bool
  full : Bool
  database : Option Ident
  /-- The filter on the names, as a clause. -/
  filter : Option String
  deriving DecidableEq, Repr

def ShowTables.canonical (s : ShowTables) : String :=
  "SHOW " ++ mark s.extended "EXTENDED" ++ mark s.full "FULL" ++ "TABLES"
    ++ spaced (s.database.map ("FROM " ++ ·.canonical)) ++ spaced s.filter

inductive Statement where
  | createTable (definition : CreateTable)
  | dropTable (removal : DropTable)
  | insert (insertion : Insert)
  | query (query : Query)
  | showTables (list : ShowTables)
  /-- An explanation of a statement, after the words in front of it. -/
  | explain (head : String) (statement : Statement)
  /-- The explanation of a table, by its text. -/
  | explainTable (text : String)
  /-- Any other statement, by its text. -/
  | other (text : String)
  deriving DecidableEq, Repr

def Statement.canonical : Statement → String
  | createTable t => t.canonical
  | dropTable d => d.canonical
  | insert i => i.canonical
  | query q => q.canonical
  | showTables l => l.canonical
  | explain head s => head ++ " " ++ s.canonical
  | explainTable text | other text => text

end RelQuery.Sql
