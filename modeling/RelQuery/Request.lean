/-
  Requests: what a user asks for, with names as they were written.
-/
import RelQuery.Schema

namespace RelQuery

/-- An attribute as named by a user, with or without its relation. -/
structure AttributeName where
  relation : Option String
  name : String
  deriving DecidableEq, Repr

def AttributeName.text (n : AttributeName) : String :=
  match n.relation with
  | some r => r ++ "." ++ n.name
  | none => n.name

inductive Operand where
  | constant (value : Datum)
  | attr (name : AttributeName)
  deriving DecidableEq, Repr

/-- The equality of two operands. -/
structure Comparison where
  left : Operand
  right : Operand
  deriving DecidableEq, Repr

/-- A select-project-join query. -/
structure Query where
  relations : List String
  comparisons : List Comparison
  /-- The select list; an empty one stands for every attribute of every relation. -/
  outputs : List AttributeName
  distinct : Bool
  orderBy : Option (List AttributeName)
  deriving DecidableEq, Repr

inductive Request where
  | createTable (name : String) (attributes : List Attribute) (primaryKey : Option Nat)
  | dropTable (name : String)
  | insert (relation : String) (rows : List (List Datum))
  | select (query : Query)
  | showTables
  | explain (query : Query)
  deriving DecidableEq, Repr

end RelQuery
