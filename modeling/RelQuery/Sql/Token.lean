/-
  Tokens of SQL text.
-/
namespace RelQuery.Sql

inductive Token where
  /-- A name or a keyword; quoted ones are names only. -/
  | word (text : String) (quoted : Bool)
  | number (digits : String) (long : Bool)
  /-- A string between single quotes. -/
  | string (value : String)
  | national (value : String)
  | hex (digits : String)
  /-- A string whose backslashes are escapes. -/
  | escaped (value : String)
  | dollar (tag value : String)
  | placeholder (text : String)
  /-- An operator, a bracket, a separator, or a character that means nothing. -/
  | symbol (text : String)
  /-- White space or a comment, which only separate. -/
  | blank (text : String)
  deriving DecidableEq, Repr

namespace Token

/-- Whether a token is that keyword, given in upper case. -/
def isKeyword (keyword : String) : Token → Bool
  | word text false => text.toUpper = keyword
  | _ => false

def isSymbol (s : String) : Token → Bool
  | symbol text => text = s
  | _ => false

def isBlank : Token → Bool
  | blank _ => true
  | _ => false

end Token

/-- Text with the quotes inside it doubled. -/
def doubled (quote : Char) (text : String) : String :=
  String.ofList (text.toList.flatMap fun c => if c = quote then [quote, quote] else [c])

/-- Text between quotes, with the quotes inside it doubled. -/
def quoteWith (quote : Char) (text : String) : String :=
  String.singleton quote ++ doubled quote text ++ String.singleton quote

/-- The quote around strings. -/
def stringQuote : Char := '\x27'

/-- The quote around names. -/
def nameQuote : Char := '\x22'

namespace Token

/-- The token between its quotes, with nothing inside them escaped. -/
def text : Token → String
  | word text quoted => if quoted then "\"" ++ text ++ "\"" else text
  | number digits long => digits ++ if long then "L" else ""
  | string value => "'" ++ value ++ "'"
  | national value => "N'" ++ value ++ "'"
  | hex digits => "X'" ++ digits ++ "'"
  | escaped value => "E'" ++ value ++ "'"
  | dollar tag value => "$" ++ tag ++ "$" ++ value ++ "$" ++ tag ++ "$"
  | placeholder text => text
  | symbol text => text
  | blank text => text

/-- The text of a token, or the mark of the end of all tokens. -/
def textOrEnd (t : Option Token) : String := (t.map text).getD "EOF"

end Token

end RelQuery.Sql
