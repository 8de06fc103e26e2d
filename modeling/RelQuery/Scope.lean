/-
  Scopes: the relations a query can see, and what attribute names mean among them.
-/
import RelQuery.Request
import RelQuery.Predicate

namespace RelQuery

/-- The relations of a query, in the order of its relation list. -/
structure Scope where
  relations : List Schema
  deriving DecidableEq

namespace Scope

/-- Every attribute of that name, one for each relation that has it. -/
def candidates (s : Scope) (name : String) : List BoundAttribute :=
  s.relations.filterMap fun r => (r.position? name).map fun p => ⟨r, p⟩

/-- The attribute of that name in the relation of that name. -/
def resolveIn (s : Scope) (relation name : String) : Except Error BoundAttribute :=
  match s.relations.find? (·.name = relation) with
  | none => .error (.unresolvedRelation relation (relation ++ "." ++ name))
  | some r =>
    match r.position? name with
    | none => .error (.unknownAttribute relation name)
    | some p => .ok ⟨r, p⟩

/-- The only attribute of that name in any relation. -/
def resolveAnywhere (s : Scope) (name : String) : Except Error BoundAttribute :=
  match s.candidates name with
  | [] => .error (.attributeNotInScope name)
  | [a] => .ok a
  | as => .error (.ambiguousAttribute name (as.map (·.text)))

/-- The attribute that a name means. -/
def resolve (s : Scope) (n : AttributeName) : Except Error BoundAttribute :=
  match n.relation with
  | some r => s.resolveIn r n.name
  | none => s.resolveAnywhere n.name

/-- Every attribute of every relation, in order. -/
def expandAll (s : Scope) : List BoundAttribute :=
  s.relations.flatMap fun r => (List.range r.arity).map fun p => ⟨r, p⟩

end Scope

end RelQuery
