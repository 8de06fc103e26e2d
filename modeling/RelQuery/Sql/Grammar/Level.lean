/-
  Levels of nesting.

  Statements, queries and expressions contain each other. The grammar of one level is built
  from that of the level below it, and at the lowest level nothing can be read.
-/
import RelQuery.Sql.Parser

namespace RelQuery.Sql.Grammar

/-- What can be read at a level. -/
structure Level where
  expr : Parser Expr
  query : Parser Query
  statement : Parser Statement

/-- The lowest level. -/
def Level.bottom : Level := ⟨throw .tooDeep, throw .tooDeep, throw .tooDeep⟩

end RelQuery.Sql.Grammar
