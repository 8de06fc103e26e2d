/-
  The answer to a query, said on stored rows alone: take the rows of the named relations in all
  combinations, keep those on which every comparison holds, and evaluate the select list.

  Nothing here knows of scopes, plans or operators. A name without a relation stands for the first
  attribute of that name in a combination; queries that can be bound have no other.

  Main statement: a name that only one tuple can be meant by has its value
  (`AttributeName.valueOn_eq_some`).
-/
import RelQuery.Proofs.Plan.Product
import RelQuery.Database
import RelQuery.Request

namespace RelQuery

/-- The stored rows of the relation of that name. -/
def Database.stored (db : Database) (name : String) : List Tuple :=
  match db.catalog.lookup? name with
  | some r => db.store.tuples r
  | none => []

/-- The query for all rows of one relation. -/
def Query.all (name : String) : Query := ⟨[name], [], [], false, none⟩

/-- The value of the attribute of that name. -/
def Tuple.valueOf? (t : Tuple) (name : String) : Option Datum :=
  (t.schema.position? name).bind (t.values[·]?)

/-- Whether a name can stand for an attribute of this relation. -/
def AttributeName.speaksOf (n : AttributeName) (r : Schema) : Bool :=
  n.relation.all (· = r.name)

/-- The value that an attribute name stands for on a combination of rows. -/
def AttributeName.valueOn (ts : List Tuple) (n : AttributeName) : Option Datum :=
  ts.findSome? fun t => if n.speaksOf t.schema then t.valueOf? n.name else none

def Operand.valueOn (ts : List Tuple) : Operand → Option Datum
  | constant d => some d
  | attr n => n.valueOn ts

/-- Whether both operands have a value and it is the same, type and all. -/
def Comparison.holdsOn (ts : List Tuple) (c : Comparison) : Bool :=
  match c.left.valueOn ts, c.right.valueOn ts with
  | some l, some r => l = r
  | _, _ => false

namespace Query

/-- The values of the select list on a combination, if all its names stand for something; an empty
list asks for all values of all rows. -/
def evaluate (q : Query) (ts : List Tuple) : Option (List Datum) :=
  if q.outputs.isEmpty then some (ts.flatMap (·.values)) else q.outputs.mapM (·.valueOn ts)

/-- The rows of the answer to a query. -/
def answer (q : Query) (db : Database) : List (Option (List Datum)) :=
  ((combinations (q.relations.map db.stored)).filter fun ts =>
    q.comparisons.all (·.holdsOn ts)).map q.evaluate

end Query

/-! ## Names that stand for one attribute -/

/-- A tuple alone in having the attribute gives the value. -/
theorem AttributeName.valueOn_eq_some {ts : List Tuple} {n : AttributeName} {t : Tuple} {d : Datum}
    (ht : t ∈ ts) (hd : t.valueOf? n.name = some d) (hn : n.speaksOf t.schema = true)
    (honly : ∀ u ∈ ts, n.speaksOf u.schema = true → (u.valueOf? n.name).isSome → u = t) :
    n.valueOn ts = some d := by
  have hsome : (n.valueOn ts).isSome := by
    rw [valueOn, List.findSome?_isSome_iff]
    exact ⟨t, ht, by rw [if_pos hn, hd]; rfl⟩
  obtain ⟨d', hd'⟩ := Option.isSome_iff_exists.1 hsome
  obtain ⟨u, hu, hud⟩ := List.exists_of_findSome?_eq_some hd'
  split at hud
  · rename_i hspeaks
    obtain rfl := honly u hu hspeaks (by rw [hud]; rfl)
    rw [hd', ← hud, hd]
  · cases hud

end RelQuery
