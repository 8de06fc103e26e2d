/-
  The binary form of records: fields written one after the other without tags, and a reader
  that has to know which kinds to expect.

  Integers are big-endian two's complement, strings a 4-byte length and their UTF-8 bytes.
-/
import RelQuery.Error
import RelQuery.Bytes
import RelQuery.Text.Utf8

namespace RelQuery

/-! ## Writing -/

/-- One field of a record. -/
inductive Field where
  | u8 (value : UInt8)
  | i32 (value : Int32)
  | u32 (value : UInt32)
  | int (value : Int64)
  | string (value : String)
  deriving DecidableEq, Repr

namespace Field

/-- What a reader is asked for. -/
inductive Kind where
  | u8
  | i32
  | u32
  | int
  | string
  deriving DecidableEq, Repr

def kind : Field → Kind
  | u8 _ => .u8
  | i32 _ => .i32
  | u32 _ => .u32
  | int _ => .int
  | string _ => .string

def encode : Field → Bytes
  | u8 v => [v]
  | i32 v => Bytes.bigEndian 4 v.toUInt32.toNat
  | u32 v => Bytes.bigEndian 4 v.toNat
  | int v => Bytes.bigEndian 8 v.toUInt64.toNat
  | string s => Bytes.bigEndian 4 (Utf8.encode s).length ++ Utf8.encode s

/-- A record is its fields in order. -/
def encodeAll (fields : List Field) : Bytes := fields.flatMap encode

end Field

/-- A value is written as the field of its type. -/
def Datum.field : Datum → Field
  | int v => .int v
  | string s => .string s

def Datum.encode (d : Datum) : Bytes := d.field.encode

/-! ## Reading -/

/-- A position in a record: how many bytes were read, and the bytes that were not. -/
structure Reader where
  offset : Nat
  rest : Bytes
  deriving DecidableEq, Repr

/-- Reading keeps its position when it fails, so that the next read goes on from there. -/
abbrev Read (α : Type) := ExceptT Error (StateM Reader) α

namespace Reader

/-- At the start of a record. -/
def ofBytes (bytes : Bytes) : Reader := ⟨0, bytes⟩

/-- The next `n` bytes; nothing is read when fewer are left. -/
def take (n : Nat) : Read Bytes := do
  let r ← get
  if r.rest.length < n then throw (.truncatedRecord n r.offset r.rest.length)
  set (Reader.mk (r.offset + n) (r.rest.drop n))
  return r.rest.take n

/-- The next `width` bytes as a number. -/
def nat (width : Nat) : Read Nat := do
  return Bytes.toNat (← take width)

def u8 : Read UInt8 := do
  return UInt8.ofNat (← nat 1)

def u32 : Read UInt32 := do
  return UInt32.ofNat (← nat 4)

def i32 : Read Int32 := do
  return (← u32).toInt32

def int : Read Int64 := do
  return (UInt64.ofNat (← nat 8)).toInt64

def string : Read String := do
  let length ← nat 4
  let bytes ← take length
  match Utf8.decode bytes with
  | .ok s => return s
  | .error (.invalid length index) => throw (.invalidUtf8 length index)
  | .error (.incomplete index) => throw (.incompleteUtf8 index)

def field : Field.Kind → Read Field
  | .u8 => return .u8 (← u8)
  | .i32 => return .i32 (← i32)
  | .u32 => return .u32 (← u32)
  | .int => return .int (← int)
  | .string => return .string (← string)

/-- A value of the type asked for. -/
def typed : (ty : Ty) → Read { d : Datum // d.type = ty }
  | .integer => return ⟨.int (← int), rfl⟩
  | .string => return ⟨.string (← string), rfl⟩

def datum (ty : Ty) : Read Datum := do
  return (← typed ty).val

/-- Nothing may be left: left-over bytes mean the record was written for something else. -/
def finish : Read Unit := do
  let r ← get
  if r.rest.length ≠ 0 then throw (.trailingBytes r.rest.length)

end Reader

/-- Reads a whole record. -/
def Read.all {α : Type} (read : Read α) (bytes : Bytes) : Except Error α :=
  (do let a ← read; Reader.finish; return a : Read α).run (Reader.ofBytes bytes) |>.1

/-- The value of type `ty` that `bytes` hold, and nothing else. -/
def Datum.decode (ty : Ty) (bytes : Bytes) : Except Error Datum :=
  (Reader.datum ty).all bytes

end RelQuery
