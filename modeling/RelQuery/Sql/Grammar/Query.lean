/-
  Queries: select lists, tables and joins, set operations, and the clauses around them.
-/
import RelQuery.Sql.Grammar.Expr

namespace RelQuery.Sql.Grammar

open Sql.Parser

/-! ## Select lists -/

/-- The filter of an aggregate in a select list. -/
def filtered (inner : Level) (e : Expr) : Parser Expr := do
  let filter := do
    keyword "FILTER"
    symbol "("
    keyword "WHERE"
    let condition ← canonically inner.expr
    symbol ")"
    return Expr.form (e.canonical ++ " FILTER (WHERE " ++ condition ++ ")")
  if (← keywordAt 0 ["FILTER"]) && (← keywordAt 2 ["WHERE"])
      && (← peekAt 1).any (·.isSymbol "(") then filter
  else return e

/-- An entry of a select list. -/
def selectItem (inner : Level) : Parser SelectItem := do
  match ← starOrExpr inner with
  | .plain e =>
    let e ← filtered inner e
    match ← alias? Keyword.endsColumn with
    | some as => return .aliased e as
    | none => return .plain e
  | item => return item

/-! ## Tables -/

/-- The alias of a table with names for its columns, as a clause. -/
def tableAlias : Parser (Option String) := do
  match ← alias? Keyword.endsTable with
  | none => return none
  | some as =>
    let names ← columns?
    return some ("AS " ++ as.canonical ++ columnsClause names)

/-- A subquery in the place of a table, after its opening parenthesis. -/
def derivedTable (inner : Level) (mark : String) : Parser TableFactor := do
  let q ← inner.query
  symbol ")"
  return .other (mark ++ "(" ++ q.canonical ++ ")" ++ spaced (← tableAlias))

/-- A named table with arguments, alias and hints. -/
def namedTable (inner : Level) : Parser TableFactor := do
  let n ← name
  let args ← do
    if ← symbol? "(" then pure (some ("(" ++ (← arguments inner) ++ ")")) else pure none
  let as ← tableAlias
  let hints ← do
    if (← keywordAt 0 ["WITH"]) && (← peekAt 1).any (·.isSymbol "(") then
      keyword "WITH"
      let hints ← parenthesized (canonicalList inner.expr)
      pure (some ("WITH (" ++ hints ++ ")"))
    else pure none
  return .table n args as hints

/-- What a join compares. -/
def joinConstraint (inner : Level) (natural : Bool) : Parser (Option String) := do
  if natural then return none
  else if ← keyword? "ON" then return some ("ON " ++ (← canonically inner.expr))
  else if ← keyword? "USING" then
    return some ("USING(" ++ commaSeparated ((← columns).map Ident.canonical) ++ ")")
  else return none

/-- The words of a join that compares something, if one comes next. -/
def joinWords? : Parser (Option String) := do
  if ← keyword? "INNER" then
    keyword "JOIN"
    return some "JOIN"
  else if ← keyword? "JOIN" then return some "JOIN"
  else if ← keyword? "FULL" then
    let _ ← keyword? "OUTER"
    keyword "JOIN"
    return some "FULL JOIN"
  else match ← oneOf? ["LEFT", "RIGHT"] with
    | none => return none
    | some side =>
      match ← oneOf? ["OUTER", "SEMI", "ANTI", "JOIN"] with
      | some "SEMI" =>
        keyword "JOIN"
        return some (side ++ " SEMI JOIN")
      | some "ANTI" =>
        keyword "JOIN"
        return some (side ++ " ANTI JOIN")
      | some "OUTER" =>
        keyword "JOIN"
        return some (side ++ " JOIN")
      | some _ => return some (side ++ " JOIN")
      | none => refuse ("expected OUTER, SEMI, ANTI or JOIN after " ++ side)

/-- A join, if one comes next. -/
def join? (inner : Level) (factor : Parser TableFactor) : Parser (Option String) := do
  if ← keyword? "CROSS" then
    let word ← oneOfThe "JOIN or APPLY after CROSS" ["JOIN", "APPLY"]
    return some ("CROSS " ++ word ++ " " ++ (← factor).canonical)
  else if ← keyword? "OUTER" then
    keyword "APPLY"
    return some ("OUTER APPLY " ++ (← factor).canonical)
  else
    let natural ← keyword? "NATURAL"
    match ← joinWords? with
    | none =>
      let what := if ← keywordAt 0 ["OUTER"] then "LEFT, RIGHT, or FULL"
        else "a join type after NATURAL"
      require (!natural) (expected what)
      return none
    | some words =>
      let f ← factor
      let constraint ← joinConstraint inner natural
      return some ((if natural then "NATURAL " else "") ++ words ++ " " ++ f.canonical
        ++ spaced constraint)

def withJoins (inner : Level) (factor : Parser TableFactor) : Parser TableWithJoins := do
  let f ← factor
  return ⟨f, ← many (join? inner factor)⟩

/-- Joins in parentheses, after the opening one. Other parentheses may stand around them, but
not around a single table. -/
def nestedJoin (inner : Level) (factor : Parser (TableFactor × Bool)) :
    Parser (TableFactor × Bool) := do
  let (first, isNested) ← factor
  let joins ← many (join? inner (do return (← factor).1))
  require (isNested || !joins.isEmpty) (expected "joined table")
  symbol ")"
  let text := "(" ++ (TableWithJoins.mk first joins).canonical ++ ")"
  return (.other (text ++ spaced (← tableAlias)), true)

/-- An entry of a list of tables, and whether it is joins in parentheses, given how the tables
in parentheses are read. -/
def factorOf (inner : Level) (factor : Parser (TableFactor × Bool)) :
    Parser (TableFactor × Bool) := do
  if ← keyword? "LATERAL" then
    require (← symbol? "(") (expected "subquery after LATERAL")
    return (← derivedTable inner "LATERAL ", false)
  else if ← keyword? "TABLE" then
    let e ← parenthesized (canonically inner.expr)
    return (.other ("TABLE(" ++ e ++ ")" ++ spaced (← tableAlias)), false)
  else if ← symbol? "(" then
    match ← attempt (derivedTable inner "") with
    | some t => return (t, false)
    | none => nestedJoin inner factor
  else return (← namedTable inner, false)

/-- An entry of a list of tables in which parentheses are nested at most as deep as there are
tokens in `ahead`. -/
def factorWithin (inner : Level) : (ahead : List Token) → Parser (TableFactor × Bool)
  | [] => factorOf inner (throw .tooDeep)
  | _ :: ahead => factorOf inner (delay fun _ => factorWithin inner ahead)

/-- An entry of a list of tables; what stands in parentheses comes after a token. -/
def tableFactor (inner : Level) : Parser TableFactor := do
  return (← factorWithin inner (← ahead)).1

/-- A table with its joins. -/
def tableWithJoins (inner : Level) : Parser TableWithJoins := withJoins inner (tableFactor inner)

/-! ## Selections -/

/-- The TOP clause. -/
def top (inner : Level) : Parser String := do
  let quantity ← do
    if ← isAhead (·.isSymbol "(") then parenthesized (canonically inner.expr) else numeral
  let percent ← keyword? "PERCENT"
  let ties ← keywords? ["WITH", "TIES"]
  return "TOP (" ++ quantity ++ ")" ++ trail percent "PERCENT" ++ trail ties "WITH TIES"

/-- The INTO clause. -/
def intoClause : Parser String := do
  let temporary ← oneOf? ["TEMP", "TEMPORARY"]
  let unlogged ← keyword? "UNLOGGED"
  let table ← keyword? "TABLE"
  let n ← name
  return "INTO" ++ trail temporary.isSome "TEMPORARY" ++ trail unlogged "UNLOGGED"
    ++ trail table "TABLE" ++ " " ++ Name.canonical n

/-- A LATERAL VIEW clause. -/
def lateralView (inner : Level) : Parser String := do
  let outer ← keyword? "OUTER"
  let e ← canonically inner.expr
  let n ← name
  let aliases ← separated (alias? ["WHERE", "GROUP", "CLUSTER", "HAVING", "LATERAL"])
  let names := aliases.filterMap id
  return "LATERAL VIEW" ++ trail outer "OUTER" ++ " " ++ e ++ " " ++ Name.canonical n
    ++ if names.isEmpty then "" else " AS " ++ commaSeparated (names.map Ident.canonical)

/-- A set of expressions in parentheses; it may be empty. -/
def groupingSet (inner : Level) : Parser (List String) := do
  symbol "("
  if ← symbol? ")" then return []
  let es ← separated (canonically inner.expr)
  symbol ")"
  return es

/-- A set of expressions; a single one needs no parentheses. -/
def groupingElement (inner : Level) : Parser (List String) := do
  if ← isAhead (·.isSymbol "(") then groupingSet inner
  else return [← canonically inner.expr]

/-- A set of expressions, as text. -/
def groupingSetText (es : List String) : String := "(" ++ commaSeparated es ++ ")"

/-- A set of expressions, as text; a single one stands without parentheses. -/
def groupingElementText : List String → String
  | [e] => e
  | es => groupingSetText es

/-- An entry of a GROUP BY list. -/
def groupItem (inner : Level) : Parser String := do
  let elements (word : String) : Parser String := do
    let sets ← parenthesized (separated (groupingElement inner))
    return word ++ " (" ++ commaSeparated (sets.map groupingElementText) ++ ")"
  if ← keywords? ["GROUPING", "SETS"] then
    let sets ← parenthesized (separated (groupingSet inner))
    return "GROUPING SETS (" ++ commaSeparated (sets.map groupingSetText) ++ ")"
  else if ← keyword? "CUBE" then elements "CUBE"
  else if ← keyword? "ROLLUP" then elements "ROLLUP"
  else canonically inner.expr

/-- A selection after the word SELECT. -/
def selection (inner : Level) : Parser Select := do
  let distinct ← distinct?
  let top ← after? "TOP" (top inner)
  let projection ← separated (selectItem inner)
  let into ← after? "INTO" intoClause
  let tables ← listAfter ["FROM"] (tableWithJoins inner)
  let lateralViews ← many (afterAll? ["LATERAL", "VIEW"] (lateralView inner))
  let condition ← after? "WHERE" inner.expr
  let groupBy ← listAfter ["GROUP", "BY"] (groupItem inner)
  let clusterBy ← listAfter ["CLUSTER", "BY"] (canonically inner.expr)
  let distributeBy ← listAfter ["DISTRIBUTE", "BY"] (canonically inner.expr)
  let sortBy ← listAfter ["SORT", "BY"] (canonically inner.expr)
  let having ← after? "HAVING" (canonically inner.expr)
  let qualify ← after? "QUALIFY" (canonically inner.expr)
  return {
    distinct, top, projection, into, tables, lateralViews, selection := condition, groupBy
    clusterBy, distributeBy, sortBy, having, qualify }

/-! ## Query bodies -/

/-- Rows after the word VALUES. -/
def valueRows (inner : Level) : Parser QueryBody := do
  let rows ← separated do
    let marked ← keyword? "ROW"
    return (marked, ← parenthesized (separated inner.expr))
  return .values (rows.any (·.1)) (rows.map (·.2))

/-- The word TABLE as a query: the three tokens after it are read, whatever they are. -/
def wholeTable : Parser QueryBody := do
  let first ← next
  let second ← next
  let third ← next
  match first, second, third with
  | some (.word schema _), some (.symbol "."), some (.word table _) =>
    return .other ("TABLE " ++ schema ++ "." ++ table)
  | some (.word _ _), some (.symbol "."), _ => unexpected third "Table name"
  | _, some (.symbol "."), _ => unexpected first "Schema name"
  | some (.word table _), _, _ => return .other ("TABLE " ++ table)
  | _, _, _ => unexpected first "Table name"

/-- How tightly a set operation binds. -/
def setPower (operation : String) : Nat := if operation = "INTERSECT" then 20 else 10

/-- The set operation that comes next. -/
def setAhead : Parser (Option String) := do
  return (← peek).bind fun t => ["UNION", "EXCEPT", "INTERSECT"].find? fun k => t.isKeyword k

/-- A body without the set operations around it. -/
def simpleBody (inner : Level) : Parser QueryBody := do
  if ← keyword? "SELECT" then return .select (← selection inner)
  else if ← symbol? "(" then
    let q ← inner.query
    symbol ")"
    return .other ("(" ++ q.canonical ++ ")")
  else if ← keyword? "VALUES" then valueRows inner
  else
    require (← keyword? "TABLE") (expected "SELECT, VALUES, or a subquery in the query body")
    wholeTable

/-- A body with the set operations that bind more tightly than `power`, given how the bodies
on their right are read. -/
def bodyOf (inner : Level) (body : (power : Nat) → Parser QueryBody) (power : Nat) :
    Parser QueryBody := do
  iterate (fun left => do
    match ← setAhead with
    | none => return none
    | some operation =>
      if setPower operation ≤ power then return none
      else
        keyword operation
        let quantifier ← oneOf? ["ALL", "DISTINCT"]
        let right ← body (setPower operation)
        return some (.other (left.canonical ++ " " ++ operation ++ spaced quantifier ++ " "
          ++ right.canonical)))
    (← simpleBody inner)

/-- A body in which bodies are nested at most as deep as there are tokens in `ahead`. -/
def bodyWithin (inner : Level) : (ahead : List Token) → (power : Nat) → Parser QueryBody
  | [], power => bodyOf inner (fun _ => throw .tooDeep) power
  | _ :: ahead, power => bodyOf inner (bodyWithin inner ahead) power

/-- A query body; every nested body comes after a token. -/
def queryBody (inner : Level) : Parser QueryBody := do
  bodyWithin inner (← ahead) 0

/-! ## Queries -/

/-- A named query of a WITH clause. -/
def cte (inner : Level) : Parser String := do
  let n ← ident
  let names ← if ← keywordAt 0 ["AS"] then pure [] else columns?
  keyword "AS"
  let q ← parenthesized inner.query
  let source ← after? "FROM" ident
  return n.canonical ++ columnsClause names ++ " AS (" ++ q.canonical ++ ")"
    ++ spaced (source.map fun s => "FROM " ++ s.canonical)

/-- The WITH clause, after its first word. -/
def ctes (inner : Level) : Parser String := do
  let recursive ← keyword? "RECURSIVE"
  return "WITH " ++ (if recursive then "RECURSIVE " else "")
    ++ commaSeparated (← separated (cte inner))

def offsetClause (inner : Level) : Parser String := do
  let e ← canonically inner.expr
  return "OFFSET " ++ e ++ spaced (← oneOf? ["ROW", "ROWS"])

/-- LIMIT and OFFSET in either order, each at most once. -/
def limits (inner : Level) : Parser (Option String × Option String) := do
  let limit? (old : Option String) : Parser (Option String) := do
    if old.isSome then return old
    else if ← keyword? "LIMIT" then limitClause inner
    else return none
  let offset? (old : Option String) : Parser (Option String) := do
    if old.isSome then return old
    else after? "OFFSET" (offsetClause inner)
  let limit ← limit? none
  let offset ← offset? none
  let limit ← limit? limit
  let offset ← offset? offset
  return (limit, offset)

/-- The FETCH clause, after its first word. -/
def fetchClause : Parser String := do
  let _ ← oneOf ["FIRST", "NEXT"]
  let quantity ← do
    if (← oneOf? ["ROW", "ROWS"]).isSome then pure ""
    else
      let n ← literal
      let percent ← keyword? "PERCENT"
      let _ ← oneOf ["ROW", "ROWS"]
      pure (" " ++ n.canonical ++ trail percent "PERCENT")
  let extent ← do
    if ← keyword? "ONLY" then pure "ONLY"
    else
      require (← keywords? ["WITH", "TIES"]) (expected "one of ONLY or WITH TIES")
      pure "WITH TIES"
  return "FETCH FIRST" ++ quantity ++ " ROWS " ++ extent

/-- A lock on the rows of a query, after the word FOR. -/
def lockClause : Parser String := do
  let kind ← oneOf ["UPDATE", "SHARE"]
  let table ← after? "OF" name
  let waiting ← do
    if ← keyword? "NOWAIT" then pure " NOWAIT"
    else if ← keywords? ["SKIP", "LOCKED"] then pure " SKIP LOCKED"
    else pure ""
  return "FOR " ++ kind ++ spaced (table.map ("OF " ++ Name.canonical ·)) ++ waiting

/-- A query, given what may stand in it in place of a body: an insertion, as text. -/
def query (inner : Level) (insertion? : Parser (Option String)) : Parser Query := do
  let ctes ← after? "WITH" (ctes inner)
  match ← insertion? with
  | some text => return .ofBody ctes (.other text)
  | none =>
    let body ← queryBody inner
    let orderBy ← listAfter ["ORDER", "BY"] (orderItem inner)
    let (limit, offset) ← limits inner
    let fetch ← after? "FETCH" fetchClause
    let locks ← many (after? "FOR" lockClause)
    return { ctes, body, orderBy, limit, offset, fetch, locks }

end RelQuery.Sql.Grammar
