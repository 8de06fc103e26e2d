/-
  Terms over rows and the equalities between them.

  A predicate belongs to a scan when it names one relation, to a join when it names two, and
  nowhere when it compares constants.
-/
import RelQuery.Row

namespace RelQuery

/-- An attribute of a relation, by position. -/
structure BoundAttribute where
  relation : Schema
  position : Nat
  deriving DecidableEq

namespace BoundAttribute

/-- `relation.attribute`; nothing is shown for a position past the end. -/
def text? (a : BoundAttribute) : Option String := a.relation.qualifiedName? a.position

/-- The text of an attribute that has one, as all have that a name was resolved to. -/
def text (a : BoundAttribute) : String := a.text?.get!

def type? (a : BoundAttribute) : Option Ty :=
  a.relation.attributes[a.position]?.map (·.type)

/-- The attribute's value in the tuple of its relation. -/
def value (a : BoundAttribute) (row : Row) : Except Error Datum :=
  match row.tupleOf? a.relation with
  | none => .error (.relationNotInRow row.text a.relation.name)
  | some t =>
    match t.values[a.position]? with
    | none => .error (.noValueAt a.position t.text)
    | some d => .ok d

end BoundAttribute

/-- An operand of a predicate or an entry of a select list. -/
inductive Term where
  | constant (value : Datum)
  | attr (name : BoundAttribute)
  deriving DecidableEq

namespace Term

def value (t : Term) (row : Row) : Except Error Datum :=
  match t with
  | constant d => .ok d
  | attr a => a.value row

def type? : Term → Option Ty
  | constant d => some d.type
  | attr a => a.type?

def relation? : Term → Option Schema
  | constant _ => none
  | attr a => some a.relation

def text? : Term → Option String
  | constant d => some d.quoted
  | attr a => a.text?

/-- The text of a term whose attribute has one. -/
def text (t : Term) : String := t.text?.get!

/-- The term is a constant, or an attribute that its relation has. -/
def InRange : Term → Prop
  | constant _ => True
  | attr a => a.position < a.relation.arity

instance : DecidablePred InRange
  | constant _ => .isTrue trivial
  | attr a => inferInstanceAs (Decidable (a.position < a.relation.arity))

theorem isSome_text? {t : Term} : t.text?.isSome ↔ t.InRange := by
  cases t with
  | constant d => exact ⟨fun _ => trivial, fun _ => rfl⟩
  | attr a => simp [text?, BoundAttribute.text?, Schema.qualifiedName?, InRange, Schema.arity]

end Term

/-- The equality of two terms. -/
structure Predicate where
  left : Term
  right : Term
  deriving DecidableEq

namespace Predicate

/-- Where a predicate can be tested. -/
inductive Kind where
  | scan (relation : Schema)
  | join (left right : Schema)
  | constant

def kind (p : Predicate) : Kind :=
  match p.left.relation?, p.right.relation? with
  | some l, some r => if l.SameRelation r then .scan l else .join l r
  | some l, none => .scan l
  | none, some r => .scan r
  | none, none => .constant

def isJoin (p : Predicate) : Bool :=
  match p.kind with
  | .join _ _ => true
  | _ => false

/-- Whether the predicate can be tested on the tuples of `relation`. -/
def scans (p : Predicate) (relation : Schema) : Bool :=
  match p.kind with
  | .scan s => s.SameRelation relation
  | _ => false

/-- The same equality read from right to left. -/
def swapped (p : Predicate) : Predicate := ⟨p.right, p.left⟩

/-- Whether the left term's value on one row equals the right term's value on another: the
left value is taken first, and values of different types are never equal. -/
def holdsBetween (p : Predicate) (left right : Row) : Except Error Bool := do
  let l ← p.left.value left
  let r ← p.right.value right
  return l = r

/-- Whether the predicate holds on a single row. -/
def holds (p : Predicate) (row : Row) : Except Error Bool := p.holdsBetween row row

def text? (p : Predicate) : Option String := do
  let left ← p.left.text?
  let right ← p.right.text?
  return left ++ " = " ++ right

/-- The text of a predicate whose attributes have one. -/
def text (p : Predicate) : String := p.text?.get!

theorem isSome_text? {p : Predicate} : p.text?.isSome ↔ p.left.InRange ∧ p.right.InRange := by
  rw [← Term.isSome_text?, ← Term.isSome_text?, text?]
  cases p.left.text? <;> cases p.right.text? <;> simp

theorem text_eq {p : Predicate} (hl : p.left.InRange) (hr : p.right.InRange) :
    p.text = p.left.text ++ " = " ++ p.right.text := by
  obtain ⟨left, hleft⟩ := Option.isSome_iff_exists.1 (Term.isSome_text?.2 hl)
  obtain ⟨right, hright⟩ := Option.isSome_iff_exists.1 (Term.isSome_text?.2 hr)
  rw [text, text?, Term.text, Term.text, hleft, hright]
  rfl

end Predicate

end RelQuery
