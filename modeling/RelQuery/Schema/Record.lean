/-
  Catalog records: the binary form of a schema.

  A record holds the name, the number of attributes, the key position (-1 for none), and then
  each attribute's name and type tag.
-/
import RelQuery.Schema
import RelQuery.Record

namespace RelQuery.Schema

/-- The key position as a record holds it. -/
def keyField (primaryKey : Option Nat) : Int32 :=
  match primaryKey with
  | none => -1
  | some p => Int32.ofNat p

def fields (s : Schema) : List Field :=
  [.string s.name, .u32 (UInt32.ofNat s.arity), .i32 (keyField s.primaryKey)]
    ++ s.attributes.flatMap fun a => [.string a.name, .u8 a.type.tag]

def encode (s : Schema) : Bytes := Field.encodeAll s.fields

/-- The key position that a record holds; a negative one other than -1 is none. -/
def readKey (name : String) : Read (Option Nat) := do
  let p ← Reader.i32
  if p = -1 then return none
  else if p < 0 then throw (.invalidKeyPosition p.toInt name)
  else return some p.toInt.toNat

def readAttribute : Read Attribute := do
  let name ← Reader.string
  let tag ← Reader.u8
  match Ty.ofTag? tag with
  | some type => return ⟨name, type⟩
  | none => throw (.unknownTypeTag tag)

def readAttributes : Nat → Read (List Attribute)
  | 0 => return []
  | count + 1 => do
    let a ← readAttribute
    let attributes ← readAttributes count
    return a :: attributes

/-- The parts of a definition, in the order of the record. -/
def readDefinition : Read (String × List Attribute × Option Nat) := do
  let name ← Reader.string
  let count ← Reader.u32
  let primaryKey ← readKey name
  let attributes ← readAttributes count.toNat
  return (name, attributes, primaryKey)

/-- The schema a record holds; a definition that could not have been made is a fault. -/
def decode (bytes : Bytes) : Except Error Schema := do
  let (name, attributes, primaryKey) ← readDefinition.all bytes
  match define name attributes primaryKey with
  | .ok s => return s
  | .error cause => throw (.corruptSchema cause)

end RelQuery.Schema
