/-
  Why a text is no statement.
-/
import RelQuery.Sql.Token

namespace RelQuery.Sql

inductive SyntaxError where
  /-- A string, a name or a comment is not closed. The place is that of its start or of the
  end of what was read, by line and column, both from one on. -/
  | unclosed (reason : String) (line column : Nat)
  /-- Something else is found than what has to stand there; at the end, nothing is found. -/
  | expected (what : String) (found : Option Token)
  /-- Each word can stand where it is, but not with the others. -/
  | refused (reason : String)
  /-- Statements, queries and expressions are nested too deep. -/
  | tooDeep
  deriving DecidableEq, Repr

namespace SyntaxError

def message : SyntaxError → String
  | unclosed reason line column =>
    reason ++ " at Line: " ++ toString line ++ ", Column " ++ toString column
  | expected what found => "Expected " ++ what ++ ", found: " ++ Token.textOrEnd found
  | refused reason => reason
  | tooDeep => "recursion limit exceeded"

end SyntaxError

end RelQuery.Sql
