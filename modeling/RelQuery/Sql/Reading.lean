/-
  From SQL text to requests.

  A request is what the grammar reads less the clauses that requests do not know; what cannot
  be expressed as a request is refused with its canonical text.
-/
import RelQuery.Sql.Grammar.Statement
import RelQuery.Request

namespace RelQuery.Sql

/-! ## Literals -/

/-- The greatest integer. -/
def maxInteger : Nat := 0x7FFFFFFFFFFFFFFF

/-- The value of a decimal numeral, digit by digit, up to the first thing wrong with it. -/
def integerValue (numeral : String) (value : Nat) : List Char → Except Error Nat
  | [] => .ok value
  | c :: cs =>
    if c.isDigit then
      let next := 10 * value + (c.toNat - '0'.toNat)
      if next ≤ maxInteger then integerValue numeral next cs
      else .error (.integerOverflow numeral)
    else .error (.invalidInteger numeral)

def Literal.datum : Literal → Except Error Datum
  | number digits _ =>
    if digits.toList = [] then .error .emptyInteger
    else (integerValue digits 0 digits.toList).map fun n => .int (Int64.ofInt n)
  | string value => .ok (.string value)
  | other text => .error (.unsupportedLiteral text)

/-! ## Expressions -/

/-- The value of a literal, perhaps in parentheses and with minus signs. -/
def Expr.datum : Expr → Except Error Datum
  | literal value => value.datum
  | nested inner => inner.datum
  | unary .minus operand => do
    match ← operand.datum with
    | .int v => return .int (-v)
    | .string _ => throw (.unsupported "negated string")
  | e => .error (.unsupported ("value " ++ e.canonical))

/-- The attribute that an expression names. -/
def Expr.attributeName : Expr → Except Error AttributeName
  | ident name => .ok ⟨none, name.text⟩
  | compound [relation, name] => .ok ⟨some relation.text, name.text⟩
  | compound names => .error (.unsupported ("attribute reference " ++ Name.canonical names))
  | e => .error (.unsupported ("expression " ++ e.canonical))

/-- An attribute or a value. -/
def Expr.operand (e : Expr) : Except Error Operand :=
  match e with
  | ident _ | compound _ => e.attributeName.map .attr
  | _ => e.datum.map .constant

/-- The equalities of which an expression is the conjunction, left to right. -/
def Expr.conjuncts : Expr → Except Error (List Comparison)
  | nested inner => inner.conjuncts
  | binary .and left right => do
    let ls ← left.conjuncts
    let rs ← right.conjuncts
    return ls ++ rs
  | binary .eq left right => do
    let l ← left.operand
    let r ← right.operand
    return [⟨l, r⟩]
  | e =>
    .error (.unsupported
      ("predicate " ++ e.canonical ++ ", only conjunctions of equalities are allowed"))

/-! ## Queries -/

/-- A name without qualifiers. -/
def singleName : Name → Except Error String
  | [i] => .ok i.text
  | n => .error (.invalidTableName (Name.canonical n))

/-- The relation that an entry of a list of tables names. -/
def TableWithJoins.relation (t : TableWithJoins) : Except Error String :=
  if t.joins ≠ [] then .error (.unsupported "explicit JOIN, list the tables in FROM instead")
  else match t.factor with
    | .table n _ none _ => singleName n
    | f => .error (.unsupported ("table reference " ++ f.canonical))

/-- The attributes of a select list; a star alone stands for all of them, which is none here. -/
def selectList : List SelectItem → Except Error (List AttributeName)
  | [.wildcard] => .ok []
  | items => items.mapM fun
    | .plain e => e.attributeName
    | item => .error (.unsupported ("select item " ++ item.canonical))

def Select.request (s : Select) (orderBy : List OrderItem) : Except Error RelQuery.Query := do
  if s.groupBy ≠ [] ∨ s.having.isSome then throw (.unsupported "aggregation")
  let relations ← s.tables.mapM TableWithJoins.relation
  if relations = [] then throw (.unsupported "SELECT without FROM")
  let outputs ← selectList s.projection
  let comparisons ← match s.selection with
    | some e => e.conjuncts
    | none => pure []
  let order ← orderBy.mapM fun o => o.value.attributeName
  return {
    relations, comparisons, outputs, distinct := s.distinct
    orderBy := if orderBy = [] then none else some order }

def Query.request (q : Query) : Except Error RelQuery.Query :=
  if q.ctes.isSome ∨ q.limit.isSome ∨ q.offset.isSome then
    .error (.unsupported "WITH, LIMIT and OFFSET")
  else match q.body with
    | .select s => s.request q.orderBy
    | _ => .error (.unsupported "set operations")

/-! ## Tables -/

/-- The type of the attributes that are declared to be of a data type. -/
def DataType.attributeType (t : DataType) : Except Error Ty :=
  match t.kind with
  | .int | .integer | .bigInt | .smallInt | .tinyInt => .ok .integer
  | .varchar | .char | .text | .string => .ok .string
  | .other _ => .error (.unknownDataType t.detail)

/-- Declares a primary key, which may be done once. -/
def declareKey (key : Option Nat) (position : Nat) : Except Error (Option Nat) :=
  match key with
  | none => .ok (some position)
  | some _ => .error (.unsupported "more than one primary key column")

/-- The primary key after the options of a column. -/
def keyAfterOptions (column : Column) (position : Nat) (key : Option Nat) :
    List (Option Ident × ColumnOption) → Except Error (Option Nat)
  | [] => .ok key
  | (_, .primaryKey) :: options => do
    keyAfterOptions column position (← declareKey key position) options
  | (_, option) :: _ =>
    .error (.unsupported
      ("column option " ++ option.canonical ++ " on " ++ column.name.canonical))

/-- The attributes that columns define from a position on, and the primary key after them. -/
def attributesOf (position : Nat) (key : Option Nat) :
    List Column → Except Error (List Attribute × Option Nat)
  | [] => .ok ([], key)
  | c :: columns => do
    let type ← c.type.attributeType
    let key ← keyAfterOptions c position key c.options
    let (attributes, key) ← attributesOf (position + 1) key columns
    return (⟨c.name.text, type⟩ :: attributes, key)

/-- The primary key after the constraints of a table. -/
def keyAfterConstraints (attributes : List Attribute) (key : Option Nat) :
    List TableConstraint → Except Error (Option Nat)
  | [] => .ok key
  | .primaryKey _ [i] :: constraints => do
    match attributes.findIdx? (·.name = i.text) with
    | none => throw (.undefinedKeyColumn i.canonical)
    | some position =>
      keyAfterConstraints attributes (← declareKey key position) constraints
  | c :: _ => .error (.unsupported ("constraint " ++ c.canonical))

def CreateTable.request (t : CreateTable) : Except Error Request := do
  let name ← singleName t.name
  let (attributes, key) ← attributesOf 0 none t.columns
  let key ← keyAfterConstraints attributes key t.constraints
  return .createTable name attributes key

def Insert.request (i : Insert) : Except Error Request := do
  if i.columns ≠ [] then throw (.unsupported "insert column list")
  match i.source.body with
  | .values _ rows =>
    let rows ← rows.mapM (List.mapM Expr.datum)
    return .insert (← singleName i.name) rows
  | _ => throw (.unsupported "insert source other than VALUES")

def DropTable.request (d : DropTable) : Except Error Request :=
  match d.names with
  | [n] => (singleName n).map .dropTable
  | _ => .error (.unsupported "dropping several tables at once")

/-! ## Statements -/

def Statement.request : Statement → Except Error Request
  | createTable t => t.request
  | dropTable d => d.request
  | insert i => i.request
  | query q => q.request.map .select
  | showTables _ => .ok .showTables
  | explain _ (query q) => q.request.map .explain
  | explain .. => .error (.unsupported "EXPLAIN of a non-query statement")
  | explainTable text | other text => .error (.unsupported text)

/-- The request that a text makes. -/
def readRequest (text : String) : Except Error Request :=
  match Grammar.read text with
  | .ok (statement, _) => statement.request
  | .error e => .error (.syntaxError e)

end RelQuery.Sql
