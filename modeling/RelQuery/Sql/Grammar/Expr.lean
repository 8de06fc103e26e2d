/-
  Expressions: operands, and infix operators by how tightly they bind.

  An operator whose power is greater than that of the place it stands in takes the operand
  before it. What stands in parentheses or between the words of a form is one level deeper.
-/
import RelQuery.Sql.Grammar.Level
import RelQuery.Sql.Grammar.DataType

namespace RelQuery.Sql.Grammar

open Sql.Parser

/-- Reads an operand up to the next operator of at most that power; where logical operators are
not allowed, they end the operand too. -/
abbrev Operand := (logical : Bool) → (power : Nat) → Parser Expr

/-! ## Powers -/

namespace Power

def or : Nat := 5
def and : Nat := 10
def not : Nat := 15
def is : Nat := 17
def like : Nat := 19
def comparison : Nat := 20
def bitOr : Nat := 21
def bitXor : Nat := 22
def bitAnd : Nat := 23
def xor : Nat := 24
def sum : Nat := 30
def product : Nat := 40
def access : Nat := 50

/-- The power of a symbol between two operands; no infix operator has power 0. -/
def ofSymbol (s : String) : Nat :=
  if ["=", "<", "<=", "<>", ">", ">=", "<=>", "~", "~*", "!~", "!~*"].contains s then comparison
  else if s = "|" then bitOr
  else if ["^", "#", ">>", "<<"].contains s then bitXor
  else if s = "&" then bitAnd
  else if ["+", "-"].contains s then sum
  else if ["*", "/", "%", "||"].contains s then product
  else if ["::", ":", "!", "[", "->", "->>", "#>", "#>>", "@>", "<@", "#-", "@?", "@@"].contains s
  then access
  else 0

/-- The power of a keyword between two operands. -/
def ofKeyword (k : String) : Nat :=
  if k = "OR" then or
  else if k = "AND" then and
  else if k = "XOR" then xor
  else if k = "IS" then is
  else if ["IN", "BETWEEN", "OPERATOR"].contains k then comparison
  else if ["LIKE", "ILIKE", "SIMILAR"].contains k then like
  else 0

end Power

/-- Whether the token `n` places ahead is one of the keywords. -/
def keywordAt (n : Nat) (ks : List String) : Parser Bool := do
  return (← peekAt n).any fun t => ks.any fun k => t.isKeyword k

/-- The power of the operator that comes next. -/
def infixPower (logical : Bool) : Parser Nat := do
  match ← peek with
  | some (.symbol s) => return Power.ofSymbol s
  | some (.word text false) =>
    let k := text.toUpper
    if k = "NOT" then
      if ← keywordAt 1 ["IN", "BETWEEN"] then return Power.comparison
      else if ← keywordAt 1 ["LIKE", "ILIKE", "SIMILAR"] then return Power.like
      else return 0
    else if k = "AT" then
      if (← keywordAt 1 ["TIME"]) && (← keywordAt 2 ["ZONE"]) then return Power.comparison
      else return 0
    else if !logical && ["AND", "OR", "XOR"].contains k then return 0
    else return Power.ofKeyword k
  | _ => return 0

/-! ## Parts of expressions -/

/-- The canonical text of what a parser of expressions reads. -/
def canonically (p : Parser Expr) : Parser String := do return (← p).canonical

/-- Canonical texts with commas between them. -/
def canonicalList (p : Parser Expr) : Parser String := do
  return commaSeparated (← separated (canonically p))

/-- A literal, in the place where one has to stand. -/
def literal : Parser Literal := do
  match ← next with
  | some (.number digits long) => return .number digits long
  | some (.string value) => return .string value
  | some (.national value) => return .other ("N'" ++ value ++ "'")
  | some (.hex digits) => return .other ("X'" ++ digits ++ "'")
  | some (.escaped value) =>
    let escape : Char → List Char
      | '\x27' => ['\\', '\x27']
      | '\\' => ['\\', '\\']
      | '\n' => ['\\', 'n']
      | '\t' => ['\\', 't']
      | '\r' => ['\\', 'r']
      | c => [c]
    return .other ("E'" ++ String.ofList (value.toList.flatMap escape) ++ "'")
  | some (.dollar tag value) => return .other (Token.dollar tag value).text
  | some (.placeholder text) => return .other text
  | some (.symbol s) =>
    if s = ":" || s = "@" then return .other (s ++ (← ident).text)
    else unexpected (some (.symbol s)) "a value"
  | some (.word text false) =>
    match text.toUpper with
    | "TRUE" => return .other "true"
    | "FALSE" => return .other "false"
    | "NULL" => return .other "NULL"
    | _ => unexpected (some (.word text false)) "a concrete value"
  | some (.word text true) => return .other (Token.word text true).text
  | found => unexpected found "a value"

/-- A number, or a parameter in its place, as text. -/
def numeral : Parser String := do
  let ahead ← peek
  let value ← literal
  require (ahead.any fun t => t matches .number .. | .placeholder _ | .symbol _)
    (unexpected ahead "literal number")
  return value.canonical

/-- A part of a date or time. -/
def datePart : Parser String := oneOfThe "date/time field" Keyword.dateParts

/-- What follows the value and the unit of an interval: the precision of the unit, and a second
unit with its own. Both precisions of seconds stand together. -/
def intervalExtent (unit : Option String) : Parser String := do
  if unit = some "SECOND" then
    match ← precisionAndScale? with
    | none => return ""
    | some (p, none) => return " (" ++ toString p ++ ")"
    | some (p, some s) => return " (" ++ toString p ++ ", " ++ toString s ++ ")"
  else
    let precisionText : Parser String := do
      let (text, _) ← precision?
      return if text.isEmpty then "" else " " ++ text
    let precision ← precisionText
    if ← keyword? "TO" then
      let last ← datePart
      let fraction ← if last = "SECOND" then precisionText else pure ""
      return precision ++ " TO " ++ last ++ fraction
    else return precision

/-- A time with its unit, after the word INTERVAL. -/
def interval (operand : Operand) : Parser String := do
  let value ← canonically (operand false 0)
  let unit ← oneOf? (Keyword.dateParts.filter (· ≠ "DATE"))
  return "INTERVAL " ++ value ++ spaced unit ++ (← intervalExtent unit)

/-- A literal of a named type. -/
def typedLiteral (operand : Operand) : Parser Expr := do
  let t ← dataType
  if t.userName.isSome then refuse "dummy"
  else if t.text = "INTERVAL" then return .form (← interval operand)
  else return .form (t.text ++ " " ++ quoteWith stringQuote (← stringLiteral))

/-- An entry of an ORDER BY list. -/
def orderItem (inner : Level) : Parser OrderItem := do
  let value ← inner.expr
  let direction ← oneOf? ["ASC", "DESC"]
  let nulls ← do
    if ← keywords? ["NULLS", "FIRST"] then pure (some "NULLS FIRST")
    else if ← keywords? ["NULLS", "LAST"] then pure (some "NULLS LAST")
    else pure none
  let parts := direction.toList ++ nulls.toList
  return ⟨value, if parts.isEmpty then none else some (" ".intercalate parts)⟩

/-- An ORDER BY list, as text. -/
def orderClause? (inner : Level) : Parser (Option String) := do
  return listClause "ORDER BY" ((← listAfter ["ORDER", "BY"] (orderItem inner)).map
    OrderItem.canonical)

/-- What follows LIMIT; the word ALL sets no limit. -/
def limitClause (inner : Level) : Parser (Option String) := do
  if ← keyword? "ALL" then return none
  else return some ("LIMIT " ++ (← canonically inner.expr))

/-! ## Functions -/

/-- The relation of which a star means all attributes. Where a word stands in front of a period,
only words and stars may stand behind it and behind the periods that follow. -/
def qualifiedStar? : Parser (Option Name) := do
  match ← peek, ← peekAt 1 with
  | some (.word text quoted), some (.symbol ".") =>
    let _ ← next
    let (more, star) ← iterate (fun (more, star) => do
      if star then return none
      else if ← symbol? "." then
        if ← symbol? "*" then return some (more, true)
        else return some (more ++ [← namePart], false)
      else return none) (([] : Name), false)
    return if star then some (identOf text quoted :: more) else none
  | _, _ => return none

/-- A star, all attributes of a relation, or an expression. -/
def starOrExpr (inner : Level) : Parser SelectItem := do
  if ← symbol? "*" then return .wildcard
  match ← tentative qualifiedStar? with
  | some n => return .qualified n
  | none => return .plain (← inner.expr)

/-- An argument of a function, perhaps named. -/
def argument (inner : Level) : Parser String := do
  if (← peekAt 1).any (·.isSymbol "=>") then
    let n ← ident
    symbol "=>"
    return n.canonical ++ " => " ++ (← starOrExpr inner).canonical
  else return (← starOrExpr inner).canonical

/-- Arguments up to the closing parenthesis. -/
def arguments (inner : Level) : Parser String := do
  if ← symbol? ")" then return ""
  let args ← separated (argument inner)
  symbol ")"
  return commaSeparated args

/-- ALL or DISTINCT, but not both; says whether it was DISTINCT. -/
def distinct? : Parser Bool := do
  let all ← keyword? "ALL"
  let distinct ← keyword? "DISTINCT"
  require (!(all && distinct)) (refuse "Cannot specify both ALL and DISTINCT")
  return distinct

/-- An end of a window frame; a string starts an interval. -/
def frameBound (inner : Level) (operand : Operand) : Parser String := do
  if ← keywords? ["CURRENT", "ROW"] then return "CURRENT ROW"
  let distance ← do
    if ← keyword? "UNBOUNDED" then pure "UNBOUNDED"
    else if ← isAhead (· matches .string _) then interval operand
    else canonically inner.expr
  let side ← oneOfThe "PRECEDING or FOLLOWING" ["PRECEDING", "FOLLOWING"]
  return distance ++ " " ++ side

def windowFrame (inner : Level) (operand : Operand) : Parser String := do
  let unit ← oneOfThe "ROWS, RANGE, GROUPS" ["ROWS", "RANGE", "GROUPS"]
  if ← keyword? "BETWEEN" then
    let first ← frameBound inner operand
    keyword "AND"
    return unit ++ " BETWEEN " ++ first ++ " AND " ++ (← frameBound inner operand)
  else return unit ++ " " ++ (← frameBound inner operand)

/-- What stands in the parentheses after OVER. -/
def window (inner : Level) (operand : Operand) : Parser String := do
  let partitions ← listAfter ["PARTITION", "BY"] (canonically inner.expr)
  let order ← orderClause? inner
  let frame ← do
    if ← isAhead (·.isSymbol ")") then pure none else pure (some (← windowFrame inner operand))
  return " ".intercalate
    ((listClause "PARTITION BY" partitions).toList ++ order.toList ++ frame.toList)

/-- A call of a function, from its opening parenthesis on. -/
def call (inner : Level) (operand : Operand) (function : String) : Parser String := do
  symbol "("
  let distinct ← distinct?
  let args ← arguments inner
  let frame ← after? "OVER" (parenthesized (window inner operand))
  return function ++ "(" ++ mark distinct "DISTINCT" ++ args ++ ")"
    ++ spaced (frame.map fun w => "OVER (" ++ w ++ ")")

/-! ## Forms that start with a keyword -/

def caseForm (inner : Level) : Parser String := do
  let subject ← do
    if ← keyword? "WHEN" then pure none
    else
      let e ← canonically inner.expr
      keyword "WHEN"
      pure (some e)
  let branch := do
    let condition ← canonically inner.expr
    keyword "THEN"
    return " WHEN " ++ condition ++ " THEN " ++ (← canonically inner.expr)
  let first ← branch
  let more ← many (after? "WHEN" branch)
  let otherwise ← after? "ELSE" (canonically inner.expr)
  keyword "END"
  return "CASE" ++ spaced subject ++ String.join (first :: more)
    ++ spaced (otherwise.map ("ELSE " ++ ·)) ++ " END"

def castForm (inner : Level) (function : String) : Parser String := parenthesized do
  let e ← canonically inner.expr
  keyword "AS"
  return function ++ "(" ++ e ++ " AS " ++ (← dataType).text ++ ")"

def extractForm (inner : Level) : Parser String := parenthesized do
  let part ← datePart
  keyword "FROM"
  return "EXTRACT(" ++ part ++ " FROM " ++ (← canonically inner.expr) ++ ")"

def roundingForm (inner : Level) (function : String) : Parser String := parenthesized do
  let e ← canonically inner.expr
  let unit ← after? "TO" datePart
  return function ++ "(" ++ e ++ spaced (unit.map ("TO " ++ ·)) ++ ")"

def positionForm (inner : Level) (operand : Operand) : Parser String := parenthesized do
  let e ← canonically (operand true Power.comparison)
  require (← keyword? "IN") (refuse "Position function must include IN keyword")
  return "POSITION(" ++ e ++ " IN " ++ (← canonically inner.expr) ++ ")"

/-- A part of a form after a keyword, for which a comma may stand. -/
def partAfter? (inner : Level) (k : String) : Parser (Option String) := do
  if ← either? (keyword? k) (symbol? ",") then
    return some (k ++ " " ++ (← canonically inner.expr))
  else return none

def substringForm (inner : Level) : Parser String := parenthesized do
  let e ← canonically inner.expr
  let start ← partAfter? inner "FROM"
  let length ← partAfter? inner "FOR"
  return "SUBSTRING(" ++ e ++ spaced start ++ spaced length ++ ")"

def overlayForm (inner : Level) : Parser String := parenthesized do
  let e ← canonically inner.expr
  keyword "PLACING"
  let what ← canonically inner.expr
  keyword "FROM"
  let start ← canonically inner.expr
  let length ← after? "FOR" (canonically inner.expr)
  return "OVERLAY(" ++ e ++ " PLACING " ++ what ++ " FROM " ++ start
    ++ spaced (length.map ("FOR " ++ ·)) ++ ")"

def trimForm (inner : Level) : Parser String := parenthesized do
  let side ← oneOf? ["BOTH", "LEADING", "TRAILING"]
  let e ← canonically inner.expr
  let source ← after? "FROM" (canonically inner.expr)
  return "TRIM(" ++ (side.map (· ++ " ")).getD "" ++ e
    ++ spaced (source.map ("FROM " ++ ·)) ++ ")"

/-- What becomes of a list that grows too long, after the words ON OVERFLOW. -/
def overflowClause (inner : Level) : Parser String := do
  if ← keyword? "ERROR" then return "ON OVERFLOW ERROR"
  keyword "TRUNCATE"
  let filler ← do
    if ← keywordAt 0 ["WITH", "WITHOUT"] then pure none
    else
      require (← isAhead fun t => t matches .string _ | .escaped _ | .national _ | .hex _)
        (expected "either filler, WITH, or WITHOUT in LISTAGG")
      pure (some (← canonically inner.expr))
  let counted ← oneOfThe "either WITH or WITHOUT in LISTAGG" ["WITH", "WITHOUT"]
  keyword "COUNT"
  return "ON OVERFLOW TRUNCATE" ++ spaced filler ++ " " ++ counted ++ " COUNT"

/-- The values of a group as a text, with an order for them. -/
def listForm (inner : Level) : Parser String := do
  let form ← parenthesized do
    let distinct ← distinct?
    let e ← canonically inner.expr
    let separator ← do
      if ← symbol? "," then pure (some (← canonically inner.expr)) else pure none
    let overflow ← afterAll? ["ON", "OVERFLOW"] (overflowClause inner)
    return "LISTAGG(" ++ mark distinct "DISTINCT" ++ e ++ (separator.map (", " ++ ·)).getD ""
      ++ spaced overflow ++ ")"
  let within ← afterAll? ["WITHIN", "GROUP"] <| parenthesized do
    keywords ["ORDER", "BY"]
    return (← separated (orderItem inner)).map OrderItem.canonical
  return form ++ spaced (within.map fun order =>
    "WITHIN GROUP (ORDER BY " ++ commaSeparated order ++ ")")

/-- The values of a group as an array, ordered by one of them and limited. -/
def arrayListForm (inner : Level) : Parser String := parenthesized do
  let distinct ← keyword? "DISTINCT"
  let e ← canonically inner.expr
  let order ← afterAll? ["ORDER", "BY"] (orderItem inner)
  let limit := (← after? "LIMIT" (limitClause inner)).join
  return "ARRAY_AGG(" ++ mark distinct "DISTINCT" ++ e
    ++ spaced (order.map ("ORDER BY " ++ ·.canonical)) ++ spaced limit ++ ")"

/-- The elements of an array after its opening bracket. -/
def arrayForm (inner : Level) : Parser String := do
  if ← symbol? "]" then return "[]"
  let elements ← canonicalList inner.expr
  symbol "]"
  return "[" ++ elements ++ "]"

/-- A subquery in parentheses. -/
def subqueryForm (inner : Level) : Parser String := do
  return "(" ++ (← parenthesized inner.query).canonical ++ ")"

/-! ## Operands -/

/-- An operand from its opening parenthesis on: a subquery, an expression or several. -/
def grouped (inner : Level) : Parser Expr := do
  symbol "("
  let e ← do
    if ← keywordAt 0 ["SELECT", "WITH"] then
      pure (.form ("(" ++ (← inner.query).canonical ++ ")"))
    else
      match ← separated inner.expr with
      | [e] => pure (.nested e)
      | es => pure (.form ("(" ++ commaSeparated (es.map Expr.canonical) ++ ")"))
  symbol ")"
  if ← symbol? "." then
    return .form (e.canonical ++ "." ++ (← wordIdent "identifier").canonical)
  else return e

/-- What a word that starts no form of its own stands for. -/
def named (inner : Level) (operand : Operand) (first : Ident) : Parser Expr := do
  match ← peek with
  | some (.symbol "(") => return .form (← call inner operand first.canonical)
  | some (.symbol ".") =>
    let more ← many do
      if ← symbol? "." then return some (← namePart) else return none
    if ← isAhead (·.isSymbol "(") then
      return .form (← call inner operand (Name.canonical (first :: more)))
    else return .compound (first :: more)
  | some (.string value) =>
    if first.text.startsWith "_" then
      let _ ← next
      return .form (first.text ++ " " ++ quoteWith stringQuote value)
    else return .ident first
  | some (.hex digits) =>
    if first.text.startsWith "_" then
      let _ ← next
      return .form (first.text ++ " X'" ++ digits ++ "'")
    else return .ident first
  | _ => return .ident first

/-- What an unquoted word stands for, in the place of an operand. -/
def worded (inner : Level) (operand : Operand) (text : String) : Parser Expr := do
  let itself := identOf text false
  let form (p : Parser String) : Parser Expr := do return .form (← p)
  match text.toUpper with
  | "TRUE" => return .literal (.other "true")
  | "FALSE" => return .literal (.other "false")
  | "NULL" => return .literal (.other "NULL")
  | "CURRENT_CATALOG" | "CURRENT_USER" | "SESSION_USER" | "USER" => return .form text
  | "CURRENT_TIMESTAMP" | "CURRENT_TIME" | "CURRENT_DATE" | "LOCALTIME" | "LOCALTIMESTAMP" =>
    form do
      let args ← if ← symbol? "(" then arguments inner else pure ""
      return text ++ "(" ++ args ++ ")"
  | "CASE" => form (caseForm inner)
  | "CAST" => form (castForm inner "CAST")
  | "TRY_CAST" => form (castForm inner "TRY_CAST")
  | "SAFE_CAST" => form (castForm inner "SAFE_CAST")
  | "EXISTS" => form do return "EXISTS " ++ (← subqueryForm inner)
  | "EXTRACT" => form (extractForm inner)
  | "CEIL" => form (roundingForm inner "CEIL")
  | "FLOOR" => form (roundingForm inner "FLOOR")
  | "POSITION" => form (positionForm inner operand)
  | "SUBSTRING" => form (substringForm inner)
  | "OVERLAY" => form (overlayForm inner)
  | "TRIM" => form (trimForm inner)
  | "INTERVAL" => form (interval operand)
  | "LISTAGG" => form (listForm inner)
  | "ARRAY_AGG" => form (arrayListForm inner)
  | "ARRAY" =>
    if ← symbol? "[" then form do return "ARRAY" ++ (← arrayForm inner)
    else if ← isAhead (·.isSymbol "(") then form do return "ARRAY" ++ (← subqueryForm inner)
    else named inner operand itself
  | "NOT" =>
    if ← keyword? "EXISTS" then form do return "NOT EXISTS " ++ (← subqueryForm inner)
    else return .unary .not (← operand true Power.not)
  | _ => named inner operand itself

/-- An operand without the operators around it. -/
def bareOperand (inner : Level) (operand : Operand) : Parser Expr := do
  match ← peek with
  | some (.word text quoted) =>
    let _ ← next
    if quoted then named inner operand (identOf text true) else worded inner operand text
  | some (.symbol s) =>
    if s = "(" then grouped inner
    else if s = ":" then return .literal (← literal)
    else
      let _ ← next
      if s = "[" then return .form (← arrayForm inner)
      else if s = "-" then return .unary .minus (← operand true Power.sum)
      else if ["+", "!!", "|/", "||/", "@", "~"].contains s then
        return .unary (.symbol s) (← operand true Power.sum)
      else unexpected (some (.symbol s)) "an expression:"
  | some _ => return .literal (← literal)
  | none => expected "an expression:"

/-- An operand with what belongs to it alone. -/
def primary (inner : Level) (operand : Operand) : Parser Expr := do
  match ← attempt (typedLiteral operand) with
  | some e => return e
  | none =>
    let e ← bareOperand inner operand
    match ← after? "COLLATE" name with
    | some collation => return .form (e.canonical ++ " COLLATE " ++ Name.canonical collation)
    | none => return e

/-! ## Operators -/

/-- The infix operator a symbol is, if it is one of those with two plain operands. -/
def symbolOp? (s : String) : Option BinaryOp :=
  if s = "=" then some .eq
  else if ["<", "<=", "<>", ">", ">=", "<=>", "~", "~*", "!~", "!~*", "|", "^", "#", ">>", "<<",
    "&", "+", "-", "*", "/", "%", "||"].contains s then some (.symbol s)
  else none

/-- The right operand of an infix operator, on one value or on each of several. -/
def rightOperand (operand : Operand) (power : Nat) : Parser Expr := do
  match ← oneOf? ["ANY", "ALL"] with
  | some k =>
    return .form (k ++ "(" ++ (← parenthesized (canonically (operand true power))) ++ ")")
  | none => operand true power

/-- What follows IS. -/
def isForm (inner : Level) (left : String) : Parser String := do
  let ahead ← peek
  let negated ← keyword? "NOT"
  let head := left ++ (if negated then " IS NOT " else " IS ")
  match ← oneOf? ["NULL", "TRUE", "FALSE", "UNKNOWN"] with
  | some k => return head ++ k
  | none =>
    require (← keywords? ["DISTINCT", "FROM"])
      (unexpected ahead "[NOT] NULL or TRUE|FALSE or [NOT] DISTINCT FROM after IS")
    return head ++ "DISTINCT FROM " ++ (← canonically inner.expr)

/-- What follows IN. -/
def inForm (inner : Level) (head : String) : Parser String := do
  if ← keyword? "UNNEST" then
    return head ++ "IN UNNEST(" ++ (← parenthesized (canonically inner.expr)) ++ ")"
  parenthesized do
    if ← keywordAt 0 ["SELECT", "WITH"] then
      return head ++ "IN (" ++ (← inner.query).canonical ++ ")"
    else return head ++ "IN (" ++ (← canonicalList inner.expr) ++ ")"

/-- A pattern and its escape character. -/
def patternForm (operand : Operand) (head : String) : Parser String := do
  let pattern ← canonically (operand true Power.like)
  match ← after? "ESCAPE" stringLiteral with
  | none => return head ++ pattern
  | some escape =>
    require (escape.utf8ByteSize = 1)
      (refuse ("Expect a char, found " ++ stringDetail escape))
    return head ++ pattern ++ " ESCAPE '" ++ escape ++ "'"

/-- A test on membership, a range or a pattern, perhaps negated. -/
def testForm (inner : Level) (operand : Operand) (left : String) : Parser String := do
  let head := left ++ (if ← keyword? "NOT" then " NOT " else " ")
  if ← keyword? "IN" then inForm inner head
  else if ← keyword? "BETWEEN" then
    let low ← canonically (operand true Power.comparison)
    keyword "AND"
    let high ← canonically (operand true Power.comparison)
    return head ++ "BETWEEN " ++ low ++ " AND " ++ high
  else if ← keyword? "LIKE" then patternForm operand (head ++ "LIKE ")
  else if ← keyword? "ILIKE" then patternForm operand (head ++ "ILIKE ")
  else
    require (← keywords? ["SIMILAR", "TO"]) (expected "IN or BETWEEN after NOT")
    patternForm operand (head ++ "SIMILAR TO ")

/-- The name of an operator in parentheses, with its qualifiers. -/
def customOperator : Parser String := parenthesized do
  let first ← next
  let more ← many do
    if ← symbol? "." then return some (← next) else return none
  return "OPERATOR(" ++ ".".intercalate ((first :: more).map Token.textOrEnd) ++ ")"

/-- Indices in brackets, the first bracket being read. -/
def indices (inner : Level) : Parser String := do
  let index := do
    let i ← canonically inner.expr
    symbol "]"
    return "[" ++ i ++ "]"
  let first ← index
  let more ← many do
    if ← symbol? "[" then return some (← index) else return none
  return String.join (first :: more)

/-- The expression that a symbol after a left operand makes. -/
def afterSymbol (inner : Level) (operand : Operand) (left : Expr) (power : Nat) (s : String) :
    Parser Expr := do
  match symbolOp? s with
  | some op => return .binary op left (← rightOperand operand power)
  | none =>
    let l := left.canonical
    match s with
    | "::" => return .form ("CAST(" ++ l ++ " AS " ++ (← dataType).text ++ ")")
    | "!" => return .form (l ++ "!")
    | "[" => return .form (l ++ (← indices inner))
    | ":" => return .form (l ++ ":" ++ (← literal).canonical)
    | _ => return .form (l ++ " " ++ s ++ " " ++ (← canonically inner.expr))

/-- The expression that a keyword after a left operand makes. -/
def afterKeyword (inner : Level) (operand : Operand) (left : Expr) (power : Nat) :
    Parser Expr := do
  if ← keyword? "AND" then return .binary .and left (← rightOperand operand power)
  else if let some word ← oneOf? ["OR", "XOR"] then
    return .binary (.symbol word) left (← rightOperand operand power)
  else if ← keyword? "OPERATOR" then
    let op ← customOperator
    return .binary (.symbol op) left (← rightOperand operand power)
  else if ← keyword? "IS" then return .form (← isForm inner left.canonical)
  else if ← keywords? ["AT", "TIME", "ZONE"] then
    match ← next with
    | some (.string zone) => return .form (left.canonical ++ " AT TIME ZONE '" ++ zone ++ "'")
    | found => unexpected found "Expected Token::SingleQuotedString after AT TIME ZONE"
  else return .form (← testForm inner operand left.canonical)

/-- Goes on from a left operand with the operator that comes next. -/
def extended (inner : Level) (operand : Operand) (left : Expr) (power : Nat) : Parser Expr := do
  match ← peek with
  | some (.symbol s) =>
    let _ ← next
    afterSymbol inner operand left power s
  | _ => afterKeyword inner operand left power

/-- An operand with the operators that bind more tightly than `power`, given how the operands
in it are read. -/
def operandOf (inner : Level) (operand : Operand) (logical : Bool) (power : Nat) :
    Parser Expr := do
  iterate (fun left => do
    let p ← infixPower logical
    if power < p then return some (← extended inner operand left p) else return none)
    (← primary inner operand)

/-- An operand in which operands are nested at most as deep as there are tokens in `ahead`. -/
def operandWithin (inner : Level) : (ahead : List Token) → Operand
  | [], logical, power => operandOf inner (fun _ _ => throw .tooDeep) logical power
  | _ :: ahead, logical, power => operandOf inner (operandWithin inner ahead) logical power

/-- An expression whose parts are one level deeper; every nested operand comes after a token. -/
def expression (inner : Level) : Parser Expr := do
  operandWithin inner (← ahead) true 0

end RelQuery.Sql.Grammar
