/-
  The catalog: which relations there are, kept in memory and in the store.

  Each relation has a record of its schema in the partition `metadata`, under its name, and a
  partition of its own for its rows. Creating and dropping are sequences of store changes, so
  that what an interrupted one leaves behind can be read off.
-/
import RelQuery.Store
import RelQuery.Schema.Record

namespace RelQuery

/-- Schemas by name. -/
structure Catalog where
  relations : SortedMap String Schema
  named : ∀ e ∈ relations.entries, e.1 = e.2.name

namespace Catalog

/-- The partition of the schema records. -/
def metadata : String := "__metadata"

/-- Names that start with two underscores belong to the system. -/
def isReserved (name : String) : Bool := ['_', '_'].isPrefixOf name.toList

def empty : Catalog := ⟨.empty, by simp [SortedMap.empty]⟩

instance : Inhabited Catalog := ⟨empty⟩

def lookup? (c : Catalog) (name : String) : Option Schema := c.relations.find? name

/-- The schema of a relation that must be there. -/
def lookup (c : Catalog) (name : String) : Except Error Schema :=
  match c.lookup? name with
  | some s => .ok s
  | none => .error (.relationNotFound name)

def contains (c : Catalog) (name : String) : Bool := (c.lookup? name).isSome

/-- The names of all relations, ascending. -/
def names (c : Catalog) : List String := c.relations.keys

def size (c : Catalog) : Nat := c.relations.size

/-- Enters a schema under its name. -/
def insert (c : Catalog) (s : Schema) : Catalog where
  relations := c.relations.insert s.name s
  named e he := by
    rcases SortedMap.mem_insertEntry he with rfl | he
    · rfl
    · exact c.named e he

def erase (c : Catalog) (name : String) : Catalog where
  relations := c.relations.erase name
  named e he := c.named e (List.mem_filter.1 he).1

/-! ## Creating and dropping relations -/

/-- Why a relation with this schema cannot be created. -/
def checkCreate (c : Catalog) (s : Schema) : Except Error Unit :=
  if isReserved s.name then .error .reservedName
  else if c.contains s.name then .error (.relationExists s.name)
  else .ok ()

/-- What creating a relation writes. -/
def creation (s : Schema) : List Store.Change :=
  [.create metadata, .put metadata (Utf8.encode s.name) s.encode, .create s.name]

/-- Why a relation cannot be dropped. -/
def checkDrop (c : Catalog) (name : String) : Except Error Unit :=
  if c.contains name then .ok () else .error (.relationNotFound name)

/-- What dropping a relation writes. -/
def removal (name : String) : List Store.Change :=
  [.create metadata, .erase metadata (Utf8.encode name), .remove name]

/-! ## Loading -/

/-- The catalog of the schema records, in the order of their keys. Records count by the name
inside them. -/
def ofRecords (records : List (Bytes × Bytes)) : Except Error Catalog :=
  records.foldlM (fun c r => return c.insert (← Schema.decode r.2)) empty

/-- The catalog that a store holds; the store gets its metadata partition if it had none. What
comes after a record that cannot be decoded is not read. -/
def load (store : Store) : Store × Except Error Catalog :=
  let store := store.create metadata
  match store.walkTo metadata fun r => !(Schema.decode r.2).isOk with
  | .ok (t, store) => (store, ofRecords t.entries)
  | .error e => (store, .error e)

end Catalog

end RelQuery
