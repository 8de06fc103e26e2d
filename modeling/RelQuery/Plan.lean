/-
  Plans: how a request is carried out, and how plans are shown.
-/
import RelQuery.Predicate

namespace RelQuery

/-- How a join pairs its inputs. -/
inductive JoinStrategy where
  /-- The right input is read again for every left row. -/
  | nestedLoop
  /-- The right input is read once into a table, which the left rows look up. -/
  | hash
  deriving DecidableEq, Repr

def JoinStrategy.text : JoinStrategy → String
  | nestedLoop => "NestedLoopJoin"
  | hash => "HashJoin"

inductive Plan where
  /-- The rows of a relation that satisfy every predicate of the filter. -/
  | scan (relation : Schema) (filter : List Predicate)
  /-- Pairs of rows; the predicate's left term reads the left input, its right term the right
  input. -/
  | join (strategy : JoinStrategy) (on : Predicate) (left right : Plan)
  | project (outputs : List Term) (input : Plan)
  | create (schema : Schema)
  | drop (name : String)
  | showTables
  | insert (relation : Schema) (tuples : List Tuple)
  /-- A text that is shown line by line. -/
  | explain (text : String)
  deriving DecidableEq

namespace Plan

/-- The names of the scanned relations, left to right. -/
def relations : Plan → List String
  | scan r _ => [r.name]
  | join _ _ left right => left.relations ++ right.relations
  | project _ input => input.relations
  | _ => []

/-- Whether carrying out the plan gives rows. -/
def isQuery : Plan → Bool
  | create _ | drop _ | insert _ _ => false
  | _ => true

/-- The width of one step of indentation. -/
def indentWidth : Nat := 4

/-- What is said of a plan's own node, if there is a text for every attribute in it. -/
def headline? : Plan → Option String
  | scan r [] => some ("Scan: " ++ r.name)
  | scan r filter => do
    let conditions ← filter.mapM Predicate.text?
    return "Scan: " ++ r.name ++ " filter: " ++ " AND ".intercalate conditions
  | join strategy on _ _ => do
    let condition ← on.text?
    return strategy.text ++ ": " ++ condition
  | project outputs _ => do
    let columns ← outputs.mapM Term.text?
    return "Project: " ++ ", ".intercalate columns
  | create _ => some "CreateTable"
  | drop _ => some "DropTable"
  | showTables => some "ShowTables"
  | insert r tuples =>
    some ("Insert: " ++ r.name ++ " (" ++ toString tuples.length ++ " rows)")
  | explain _ => some "Explain"

def spaces (n : Nat) : String := "".pushn ' ' n

/-- The text of a plan from an indentation on: what is said of its own node, and below it the
inputs, each from a step further in. -/
def textFrom? (indent : Nat) : Plan → Option String
  | join strategy on left right => do
    let own ← headline? (join strategy on left right)
    let left ← left.textFrom? (indent + indentWidth)
    let right ← right.textFrom? (indent + indentWidth)
    return spaces indent ++ own ++ "\n" ++ left ++ "\n" ++ right
  | project outputs input => do
    let own ← headline? (project outputs input)
    let input ← input.textFrom? (indent + indentWidth)
    return spaces indent ++ own ++ "\n" ++ input
  | p => p.headline?.map (spaces indent ++ ·)

def text? (p : Plan) : Option String := p.textFrom? 0

/-- The text of a plan whose attributes have one. -/
def text (p : Plan) : String := p.text?.get!

end Plan

end RelQuery
