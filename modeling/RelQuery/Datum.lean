/-
  The values a relation stores and their types.
-/
namespace RelQuery

/-- The type of an attribute. -/
inductive Ty where
  | integer
  | string
  deriving DecidableEq, Repr, Inhabited

namespace Ty

/-- The type's name in messages and results. -/
def text : Ty → String
  | integer => "INTEGER"
  | string => "STRING"

/-- The byte that stands for the type in a catalog record. -/
def tag : Ty → UInt8
  | integer => 1
  | string => 2

/-- The type a catalog byte stands for. -/
def ofTag? (tag : UInt8) : Option Ty :=
  if tag = 1 then some integer else if tag = 2 then some string else none

theorem ofTag?_tag (t : Ty) : ofTag? t.tag = some t := by cases t <;> rfl

theorem ofTag?_eq_some_iff {b : UInt8} {t : Ty} : ofTag? b = some t ↔ b = t.tag := by
  constructor
  · intro h
    unfold ofTag? at h
    split at h
    · rename_i hb; cases h; exact hb
    · split at h
      · rename_i hb; cases h; exact hb
      · cases h
  · rintro rfl; exact ofTag?_tag t

end Ty

/-- A value: a 64-bit signed integer or a string. -/
inductive Datum where
  | int (value : Int64)
  | string (value : String)
  deriving DecidableEq, Repr, Inhabited

namespace Datum

def type : Datum → Ty
  | int _ => .integer
  | string _ => .string

/-- The value as shown in results: decimal digits, or the string as it is. -/
def text : Datum → String
  | int v => toString v.toInt
  | string s => s

/-- The value as shown in a predicate: strings stand between single quotes, unescaped. -/
def quoted : Datum → String
  | int v => toString v.toInt
  | string s => "'" ++ s ++ "'"

end Datum

end RelQuery
