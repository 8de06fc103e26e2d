/-
  Rows: tuples of one relation, joins of tuples, and projected values.

  A join of rows lists the tuples of its parts, left before right, and never two tuples of
  one relation, so that the tuple of a relation can be looked up by the relation alone.
-/
import RelQuery.Schema.Record

namespace RelQuery

/-- A stored row of one relation. -/
structure Tuple where
  schema : Schema
  values : List Datum
  typed : schema.Admits values
  deriving DecidableEq

namespace Tuple

/-- The tuple with these values, if they fit the schema. -/
def ofValues (schema : Schema) (values : List Datum) : Except Error Tuple :=
  match h : schema.checkValues values with
  | .ok () => .ok ⟨schema, values, Schema.checkValues_eq_ok_iff.1 h⟩
  | .error e => .error e

def primaryKey? (t : Tuple) : Option Datum :=
  t.schema.primaryKey.bind fun p => t.values[p]?

/-- A record of the values, in attribute order. -/
def encode (t : Tuple) : Bytes := t.values.flatMap Datum.encode

/-- A value for each attribute, in order. -/
def readValues : (attributes : List Attribute) →
    Read { values : List Datum // values.map (·.type) = attributes.map (·.type) }
  | [] => return ⟨[], rfl⟩
  | a :: attributes => do
    let ⟨d, hd⟩ ← Reader.typed a.type
    let ⟨values, h⟩ ← readValues attributes
    return ⟨d :: values, by simp [hd, h]⟩

/-- The tuple that a record holds, and nothing else. -/
def decode (schema : Schema) (bytes : Bytes) : Except Error Tuple := do
  let ⟨values, h⟩ ← (readValues schema.attributes).all bytes
  return ⟨schema, values, h⟩

def text (t : Tuple) : String :=
  t.schema.name ++ "[" ++ ", ".intercalate (t.values.map Datum.text) ++ "]"

end Tuple

/-- Any row that an operator hands on. -/
inductive Row where
  | base (tuple : Tuple)
  | composite (tuples : List Tuple)
  | projected (values : List Datum)
  deriving DecidableEq

namespace Row

/-- The tuple of `relation` that a row carries. -/
def tupleOf? (row : Row) (relation : Schema) : Option Tuple :=
  match row with
  | base t => if t.schema.SameRelation relation then some t else none
  | composite ts => ts.find? fun t => t.schema.SameRelation relation
  | projected _ => none

/-- The tuples a row is made of; a projected row has forgotten its own. -/
def tuples : Row → Except Error (List Tuple)
  | base t => .ok [t]
  | composite ts => .ok ts
  | projected _ => .error .projectedRowJoined

/-- Adds tuples one by one behind those of relations that are already there. -/
def extend (ts : List Tuple) : List Tuple → Except Error (List Tuple)
  | [] => .ok ts
  | t :: more =>
    if ts.any fun u => u.schema.SameRelation t.schema then
      .error (.repeatedRowOf t.schema.name)
    else extend (ts ++ [t]) more

/-- The join of two rows: the tuples of the left one, then those of the right one. -/
def combine (left right : Row) : Except Error Row := do
  let ls ← left.tuples
  let rs ← right.tuples
  return composite (← extend [] (ls ++ rs))

def text : Row → String
  | base t => t.text
  | composite ts => " ".intercalate (ts.map Tuple.text)
  | projected values => "\t".intercalate (values.map Datum.text)

end Row

end RelQuery
