/-
  Relation schemas: named, typed attributes in order, and the position of the primary key.

  A schema always has an attribute, distinct attribute names and a key inside its range;
  `Schema.define` says which of the three a definition breaks.
-/
import RelQuery.Error

namespace RelQuery

structure Attribute where
  name : String
  type : Ty
  deriving DecidableEq, Repr

structure Schema where
  name : String
  attributes : List Attribute
  primaryKey : Option Nat
  attributes_ne_nil : attributes ≠ []
  names_nodup : (attributes.map (·.name)).Nodup
  key_lt : ∀ p ∈ primaryKey, p < attributes.length
  deriving DecidableEq

namespace Schema

/-- The first name in `names` that also stands before it. -/
def firstRepeated (seen : List String) : List String → Option String
  | [] => none
  | n :: names => if n ∈ seen then some n else firstRepeated (n :: seen) names

theorem firstRepeated_eq_none {seen names : List String} :
    firstRepeated seen names = none ↔ names.Nodup ∧ ∀ n ∈ names, n ∉ seen := by
  induction names generalizing seen with
  | nil => simp [firstRepeated]
  | cons n names ih =>
    rw [firstRepeated]
    split
    · rename_i h; simp [h]
    · rename_i h
      rw [ih]
      simp only [List.nodup_cons, List.mem_cons, not_or, forall_eq_or_imp]
      constructor
      · rintro ⟨nodup, fresh⟩
        exact ⟨⟨fun hn => (fresh n hn).1 rfl, nodup⟩, h, fun m hm => (fresh m hm).2⟩
      · rintro ⟨⟨hn, nodup⟩, _, fresh⟩
        exact ⟨nodup, fun m hm => ⟨fun e => hn (e ▸ hm), fresh m hm⟩⟩

/-- The schema with this name, attributes and key position, if there can be one. -/
def define (name : String) (attributes : List Attribute) (primaryKey : Option Nat) :
    Except Error Schema :=
  if hne : attributes = [] then .error (.noAttributes name)
  else match hdup : firstRepeated [] (attributes.map (·.name)) with
    | some a => .error (.duplicateAttribute a name)
    | none =>
      have nodup := (firstRepeated_eq_none.1 hdup).1
      match primaryKey with
      | none => .ok ⟨name, attributes, none, hne, nodup, by simp⟩
      | some p =>
        if hp : p < attributes.length then
          .ok ⟨name, attributes, some p, hne, nodup, by simpa using hp⟩
        else .error (.keyOutOfRange p name)

/-- Relations are told apart by name alone. -/
def SameRelation (s t : Schema) : Prop := s.name = t.name

instance (s t : Schema) : Decidable (s.SameRelation t) :=
  inferInstanceAs (Decidable (s.name = t.name))

def arity (s : Schema) : Nat := s.attributes.length

def position? (s : Schema) (attributeName : String) : Option Nat :=
  s.attributes.findIdx? (·.name = attributeName)

/-- `relation.attribute` for the attribute at a position. -/
def qualifiedName? (s : Schema) (position : Nat) : Option String :=
  s.attributes[position]?.map fun a => s.name ++ "." ++ a.name

/-! ## Values that fit a schema -/

/-- As many values as attributes, each of its attribute's type. -/
def Admits (s : Schema) (values : List Datum) : Prop :=
  values.map (·.type) = s.attributes.map (·.type)

instance (s : Schema) (values : List Datum) : Decidable (s.Admits values) :=
  inferInstanceAs (Decidable (_ = _))

/-- The first value of a type other than its attribute's, counted from `position`. -/
def checkTypes (position : Nat) : List Attribute → List Datum → Except Error Unit
  | a :: attributes, d :: values =>
    if d.type = a.type then checkTypes (position + 1) attributes values
    else .error (.typeMismatch position a.type d.type)
  | _, _ => .ok ()

/-- Whether the values fit, and the first reason why not. -/
def checkValues (s : Schema) (values : List Datum) : Except Error Unit :=
  if values.length ≠ s.arity then .error (.arityMismatch s.name s.arity values.length)
  else checkTypes 0 s.attributes values

theorem checkTypes_eq_ok_iff {position : Nat} {attributes : List Attribute}
    {values : List Datum} (h : values.length = attributes.length) :
    checkTypes position attributes values = .ok ()
      ↔ values.map (·.type) = attributes.map (·.type) := by
  induction attributes generalizing position values with
  | nil => cases values <;> simp_all [checkTypes]
  | cons a attributes ih =>
    cases values with
    | nil => simp at h
    | cons d values =>
      rw [checkTypes]
      split
      · rename_i hd; simp [hd, ih (by simpa using h)]
      · rename_i hd; simp [hd]

theorem checkValues_eq_ok_iff {s : Schema} {values : List Datum} :
    s.checkValues values = .ok () ↔ s.Admits values := by
  unfold checkValues Admits
  split
  · rename_i h
    constructor
    · intro hc; cases hc
    · intro hm
      have := congrArg List.length hm
      simp only [List.length_map] at this
      exact absurd this h
  · rename_i h
    exact checkTypes_eq_ok_iff (by simpa [arity] using h)

end Schema

end RelQuery
