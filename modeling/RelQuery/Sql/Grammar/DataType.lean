/-
  Data types: the keyword tables of types, their arguments, and how refusals name them.
-/
import RelQuery.Sql.Parser
import RelQuery.Text.Printable

namespace RelQuery.Sql.Grammar

open Sql.Parser

/-! ## Details -/

/-- An optional part in a detail. -/
def optionDetail (part : Option String) : String :=
  match part with
  | some text => "Some(" ++ text ++ ")"
  | none => "None"

/-- A list in a detail. -/
def listDetail (parts : List String) : String := "[" ++ commaSeparated parts ++ "]"

/-- A character by its code point, in hexadecimal digits. -/
def codePointDetail (c : Char) : List Char :=
  ['\\', 'u', '\x7b'] ++ Nat.toDigits 16 c.toNat ++ ['\x7d']

/-- A character in a quoted detail; those that would not show by themselves are numbered. -/
def escapeDetail (c : Char) : List Char :=
  if c = '\x22' then ['\\', '\x22']
  else if c = '\\' then ['\\', '\\']
  else if c = '\n' then ['\\', 'n']
  else if c = '\r' then ['\\', 'r']
  else if c = '\t' then ['\\', 't']
  else if c = '\x00' then ['\\', '0']
  else if Printable.isPrintable c then [c]
  else codePointDetail c

/-- A string in a detail. -/
def stringDetail (s : String) : String :=
  String.ofList (['\x22'] ++ s.toList.flatMap escapeDetail ++ ['\x22'])

/-- A quote in a detail. -/
def quoteDetail (quote : Char) : String :=
  if quote = stringQuote then "'\\''" else String.ofList ['\x27', quote, '\x27']

def identDetail (i : Ident) : String :=
  "Ident \x7b value: " ++ stringDetail i.text ++ ", quote_style: "
    ++ optionDetail (i.quote.map quoteDetail) ++ " \x7d"

def nameDetail (n : Name) : String :=
  "ObjectName(" ++ listDetail (n.map identDetail) ++ ")"

/-! ## Arguments -/

/-- A number in parentheses, as text and as detail. -/
def precision? : Parser (String × String) := do
  match ← parenthesized? unsigned with
  | some n => return ("(" ++ toString n ++ ")", optionDetail (toString n))
  | none => return ("", optionDetail none)

/-- A length in characters or octets, as text and as detail. -/
def characterLength? : Parser (String × String) := do
  let length := do
    let n ← unsigned
    return (n, ← oneOf? ["CHARACTERS", "OCTETS"])
  match ← parenthesized? length with
  | none => return ("", optionDetail none)
  | some (n, unit) =>
    let unitDetail := optionDetail
      (unit.map fun u => if u = "OCTETS" then "Octets" else "Characters")
    return ("(" ++ toString n ++ spaced unit ++ ")",
      optionDetail (some ("CharacterLength \x7b length: " ++ toString n ++ ", unit: " ++ unitDetail
        ++ " \x7d")))

/-- A precision with an optional scale in parentheses. -/
def precisionAndScale? : Parser (Option (Nat × Option Nat)) :=
  parenthesized? do
    let p ← unsigned
    if ← symbol? "," then return (p, some (← unsigned)) else return (p, none)

/-- A precision with an optional scale, as text and as detail. -/
def exactNumber? : Parser (String × String) := do
  match ← precisionAndScale? with
  | none => return ("", "None")
  | some (p, none) => return ("(" ++ toString p ++ ")", "Precision(" ++ toString p ++ ")")
  | some (p, some s) =>
    return ("(" ++ toString p ++ "," ++ toString s ++ ")",
      "PrecisionAndScale(" ++ toString p ++ ", " ++ toString s ++ ")")

/-- A time zone after a time. -/
def timeZone : Parser (String × String) := do
  if ← keyword? "WITH" then
    keywords ["TIME", "ZONE"]
    return (" WITH TIME ZONE", "WithTimeZone")
  else if ← keyword? "WITHOUT" then
    keywords ["TIME", "ZONE"]
    return (" WITHOUT TIME ZONE", "WithoutTimeZone")
  else return ("", "None")

/-- The strings of an enumeration. -/
def stringValues : Parser (List String) := do
  symbol "("
  let values ← separated do
    match ← next with
    | some (.string value) => return value
    | found => unexpected found "a string"
  require (← symbol? ")") (expected ", or \x7d")
  return values

/-- What may stand in the parentheses after a type named by the user. -/
def modifiers : Parser (List String) := do
  if ← symbol? "(" then
    let tokens ← many do
      match ← next with
      | some (.symbol ")") => return none
      | some (.symbol ",") => return some []
      | some (.word text quoted) => return some [(Token.word text quoted).text]
      | some (.number digits _) => return some [digits]
      | some (.string value) => return some [value]
      | found => unexpected found "type modifiers"
    return tokens.flatten
  else return []

/-! ## Types -/

/-- A type without arguments. -/
def plain (text : String) (kind : DataType.Kind) : Parser DataType := return { text, kind }

/-- A type with arguments. -/
def withArguments (text : String) (kind : DataType.Kind) (args : Parser (String × String)) :
    Parser DataType := do
  let (argText, argDetail) ← args
  return { text := text ++ argText, kind, arguments := "(" ++ argDetail ++ ")" }

/-- An integer type; unsigned ones are types of their own. -/
def integerType (text : String) (kind : DataType.Kind) : Parser DataType := do
  let (argText, argDetail) ← precision?
  let arguments := "(" ++ argDetail ++ ")"
  if ← keyword? "UNSIGNED" then
    return {
      text := text ++ argText ++ " UNSIGNED"
      kind := .other ("Unsigned" ++ kind.name)
      arguments }
  else return { text := text ++ argText, kind, arguments }

/-- A character type and its longer forms. -/
def characterType (text : String) (kind : DataType.Kind) : Parser DataType := do
  if ← keyword? "VARYING" then
    withArguments (text ++ " VARYING") (.other (kind.name ++ "Varying")) characterLength?
  else if ← keywords? ["LARGE", "OBJECT"] then
    withArguments (text ++ " LARGE OBJECT") (.other (kind.name ++ "LargeObject")) precision?
  else withArguments text kind characterLength?

/-- A type of times, with its zone. -/
def timeType (text : String) (kind : DataType.Kind) : Parser DataType := do
  let (argText, argDetail) ← precision?
  let (zoneText, zoneDetail) ← timeZone
  return {
    text := text ++ argText ++ zoneText
    kind
    arguments := "(" ++ argDetail ++ ", " ++ zoneDetail ++ ")" }

/-- A type of times with the zone in its name. -/
def zonedType (text : String) (kind : DataType.Kind) : Parser DataType := do
  let (argText, argDetail) ← precision?
  return { text := text ++ argText, kind, arguments := "(" ++ argDetail ++ ", Tz)" }

def enumeration (text : String) (kind : DataType.Kind) : Parser DataType := do
  let values ← stringValues
  return {
    text := text ++ "(" ++ commaSeparated (values.map (quoteWith stringQuote)) ++ ")"
    kind
    arguments := "(" ++ listDetail (values.map stringDetail) ++ ")" }

/-- A list type of elements of another type. -/
def arrayOf (element : DataType) : DataType where
  text := element.text ++ "[]"
  kind := .other "Array"
  arguments := "(" ++ optionDetail (some element.detail) ++ ")"

/-- What follows the keyword of a built-in type. -/
def builtinType? (inner : Parser DataType) (keyword : String) : Option (Parser DataType) :=
  match keyword with
  | "BOOLEAN" => some (plain "BOOLEAN" (.other "Boolean"))
  | "FLOAT" => some (withArguments "FLOAT" (.other "Float") precision?)
  | "REAL" => some (plain "REAL" (.other "Real"))
  | "DOUBLE" => some do
    if ← keyword? "PRECISION" then plain "DOUBLE PRECISION" (.other "DoublePrecision")
    else plain "DOUBLE" (.other "Double")
  | "TINYINT" => some (integerType "TINYINT" .tinyInt)
  | "SMALLINT" => some (integerType "SMALLINT" .smallInt)
  | "MEDIUMINT" => some (integerType "MEDIUMINT" (.other "MediumInt"))
  | "INT" => some (integerType "INT" .int)
  | "INTEGER" => some (integerType "INTEGER" .integer)
  | "BIGINT" => some (integerType "BIGINT" .bigInt)
  | "VARCHAR" => some (withArguments "VARCHAR" .varchar characterLength?)
  | "NVARCHAR" => some (withArguments "NVARCHAR" (.other "Nvarchar") precision?)
  | "CHARACTER" => some (characterType "CHARACTER" (.other "Character"))
  | "CHAR" => some (characterType "CHAR" .char)
  | "CLOB" => some (withArguments "CLOB" (.other "Clob") precision?)
  | "BINARY" => some (withArguments "BINARY" (.other "Binary") precision?)
  | "VARBINARY" => some (withArguments "VARBINARY" (.other "Varbinary") precision?)
  | "BLOB" => some (withArguments "BLOB" (.other "Blob") precision?)
  | "UUID" => some (plain "UUID" (.other "Uuid"))
  | "DATE" => some (plain "DATE" (.other "Date"))
  | "DATETIME" => some (withArguments "DATETIME" (.other "Datetime") precision?)
  | "TIMESTAMP" => some (timeType "TIMESTAMP" (.other "Timestamp"))
  | "TIMESTAMPTZ" => some (zonedType "TIMESTAMPTZ" (.other "Timestamp"))
  | "TIME" => some (timeType "TIME" (.other "Time"))
  | "TIMETZ" => some (zonedType "TIMETZ" (.other "Time"))
  | "INTERVAL" => some (plain "INTERVAL" (.other "Interval"))
  | "JSON" => some (plain "JSON" (.other "JSON"))
  | "REGCLASS" => some (plain "REGCLASS" (.other "Regclass"))
  | "STRING" => some (plain "STRING" .string)
  | "TEXT" => some (plain "TEXT" .text)
  | "BYTEA" => some (plain "BYTEA" (.other "Bytea"))
  | "NUMERIC" => some (withArguments "NUMERIC" (.other "Numeric") exactNumber?)
  | "DECIMAL" => some (withArguments "DECIMAL" (.other "Decimal") exactNumber?)
  | "DEC" => some (withArguments "DEC" (.other "Dec") exactNumber?)
  | "BIGNUMERIC" => some (withArguments "BIGNUMERIC" (.other "BigNumeric") exactNumber?)
  | "BIGDECIMAL" => some (withArguments "BIGDECIMAL" (.other "BigDecimal") exactNumber?)
  | "ENUM" => some (enumeration "ENUM" (.other "Enum"))
  | "SET" => some (enumeration "SET" (.other "Set"))
  | "ARRAY" => some do
    symbol "<"
    let element ← inner
    symbol ">"
    return arrayOf element
  | _ => none

/-- A type named by the user. -/
def customType : Parser DataType := do
  let n ← name
  let args ← modifiers
  return {
    text := Name.canonical n ++ if args.isEmpty then "" else "(" ++ commaSeparated args ++ ")"
    kind := .other "Custom"
    arguments := "(" ++ nameDetail n ++ ", " ++ listDetail (args.map stringDetail) ++ ")"
    userName := some n }

/-- A data type, given how the types of elements are read. -/
def dataTypeOf (element : Parser DataType) : Parser DataType := do
  let base ← match ← peek with
    | some (.word text quoted) =>
      match if quoted then none else builtinType? element text.toUpper with
      | some rest => do
        let _ ← next
        rest
      | none => customType
    | found => unexpected found "a data type name"
  iterate (fun t => do
    if ← symbol? "[" then
      symbol "]"
      return some (arrayOf t)
    else return none) base

/-- A data type whose element types are nested at most as deep as there are tokens in
`ahead`. -/
def dataTypeWithin : (ahead : List Token) → Parser DataType
  | [] => dataTypeOf (throw .tooDeep)
  | _ :: ahead => dataTypeOf (delay fun _ => dataTypeWithin ahead)

/-- A data type; every type of elements comes after a token. -/
def dataType : Parser DataType := do dataTypeWithin (← ahead)

end RelQuery.Sql.Grammar
