/-
  What is written into records is read back: fields, values, tuples and schemas.

  A read takes some bytes if it reads exactly these, whatever stands behind them. Lengths of
  strings, the number of attributes and the position of the key have 32 bits, so a round trip
  is one of things that fit (`Datum.Fits`, `Schema.Fits`).

  Main statements: `Tuple.decode_encode` and `Schema.decode_encode`.
-/
import RelQuery.Row
import RelQuery.Proofs.Text.Utf8
import Mathlib.Algebra.Group.Nat.Defs

namespace RelQuery

/-! ## Reads -/

/-- The read takes these bytes from the front of any others, and gives this. -/
def Read.Takes {α : Type} (x : Read α) (bytes : Bytes) (a : α) : Prop :=
  ∀ offset rest, x.run ⟨offset, bytes ++ rest⟩ = (.ok a, ⟨offset + bytes.length, rest⟩)

namespace Read.Takes

variable {α β : Type}

theorem of_pure {a b : α} (h : a = b) : Takes (pure a : Read α) [] b := fun _ _ => h ▸ rfl

/-- The second of two reads starts where the first one stopped. -/
theorem run_bind (x : Read α) (f : α → Read β) (r : Reader) :
    (x >>= f).run r = ExceptT.bindCont f (x.run r).1 (x.run r).2 := rfl

/-- Reads in sequence take their bytes in sequence. -/
theorem bind {x : Read α} {f : α → Read β} {bytes more : Bytes} {a : α} {b : β}
    (hx : x.Takes bytes a) (hf : (f a).Takes more b) : (x >>= f).Takes (bytes ++ more) b := by
  intro offset rest
  rw [run_bind, List.append_assoc, hx offset (more ++ rest)]
  refine (hf _ rest).trans ?_
  rw [List.length_append, Nat.add_assoc]

/-- What is read may be the start of a computation that reads nothing more. -/
theorem map {x : Read α} {bytes : Bytes} {a : α} {b : β} {f : α → Read β} (hx : x.Takes bytes a)
    (hf : (f a).Takes [] b) : (x >>= f).Takes bytes b := by
  have h := hx.bind hf
  rwa [List.append_nil] at h

/-- A record of the bytes that a read takes is read whole. -/
theorem all {x : Read α} {bytes : Bytes} {a : α} (hx : x.Takes bytes a) :
    x.all bytes = .ok a := by
  have h := hx 0 []
  rw [List.append_nil] at h
  rw [Read.all, Reader.ofBytes, run_bind, h]
  rfl

end Read.Takes

/-! ## Fields -/

namespace Reader

open Read.Takes (of_pure)

theorem run_take {n : Nat} {r : Reader} (h : n ≤ r.rest.length) :
    (take n).run r = (.ok (r.rest.take n), ⟨r.offset + n, r.rest.drop n⟩) := by
  have hn : ¬ r.rest.length < n := by omega
  show ExceptT.run (if r.rest.length < n then _ else _ : Read Bytes) r = _
  rw [if_neg hn]
  rfl

theorem run_take_of_lt {n : Nat} {r : Reader} (h : r.rest.length < n) :
    (take n).run r = (.error (.truncatedRecord n r.offset r.rest.length), r) := by
  show ExceptT.run (if r.rest.length < n then _ else _ : Read Bytes) r = _
  rw [if_pos h]
  rfl

theorem take_takes (bytes : Bytes) : (take bytes.length).Takes bytes bytes := by
  intro offset rest
  rw [run_take (by simp), List.take_left, List.drop_left]

theorem nat_takes {width n : Nat} (h : n < Nat.pow 256 width) :
    (nat width).Takes (Bytes.bigEndian width n) n := by
  have htake := take_takes (Bytes.bigEndian width n)
  rw [Bytes.length_bigEndian] at htake
  refine htake.map (of_pure ?_)
  rw [Bytes.toNat_bigEndian, Nat.mod_eq_of_lt h]

theorem u8_takes (v : UInt8) : u8.Takes [v] v := by
  have h : (nat 1).Takes [v] v.toNat := (take_takes [v]).map (of_pure (by simp [Bytes.toNat]))
  exact h.map (of_pure UInt8.ofNat_toNat)

theorem u32_takes (v : UInt32) : u32.Takes (Bytes.bigEndian 4 v.toNat) v :=
  (nat_takes v.toNat_lt).map (of_pure UInt32.ofNat_toNat)

theorem i32_takes (v : Int32) : i32.Takes (Bytes.bigEndian 4 v.toUInt32.toNat) v :=
  (u32_takes v.toUInt32).map (of_pure rfl)

theorem int_takes (v : Int64) : int.Takes (Bytes.bigEndian 8 v.toUInt64.toNat) v := by
  refine (nat_takes v.toUInt64.toNat_lt).map (of_pure ?_)
  rw [UInt64.ofNat_toNat]
  rfl

theorem string_takes {s : String} (h : (Utf8.encode s).length < 2 ^ 32) :
    string.Takes (Field.string s).encode s := by
  refine (nat_takes (by simpa using h)).bind ((take_takes _).map ?_)
  rw [Utf8.decode_encode]
  exact of_pure rfl

end Reader

/-! ## Tuples -/

/-- The bytes of a string can be counted in its length field. -/
def Datum.Fits : Datum → Prop
  | .int _ => True
  | .string s => (Utf8.encode s).length < 2 ^ 32

namespace Tuple

theorem typed_takes {d : Datum} {ty : Ty} (h : d.type = ty) (hd : d.Fits) :
    (Reader.typed ty).Takes d.encode ⟨d, h⟩ := by
  subst h
  cases d with
  | int v => exact (Reader.int_takes v).map (.of_pure rfl)
  | string s => exact (Reader.string_takes hd).map (.of_pure rfl)

theorem readValues_takes {attributes : List Attribute} {values : List Datum}
    (h : values.map (·.type) = attributes.map (·.type)) (hfit : ∀ d ∈ values, d.Fits) :
    (readValues attributes).Takes (values.flatMap Datum.encode) ⟨values, h⟩ := by
  induction attributes generalizing values with
  | nil =>
    obtain rfl : values = [] := by simpa using h
    exact .of_pure rfl
  | cons a attributes ih =>
    cases values with
    | nil => cases h
    | cons d values =>
      obtain ⟨hd, hvalues⟩ := List.cons.inj h
      obtain ⟨hfirst, hrest⟩ := List.forall_mem_cons.1 hfit
      exact (typed_takes hd hfirst).bind ((ih hvalues hrest).map (.of_pure rfl))

/-- A tuple whose strings fit is read back from its record. -/
theorem decode_encode {t : Tuple} (h : ∀ d ∈ t.values, d.Fits) :
    decode t.schema t.encode = .ok t := by
  unfold decode encode
  rw [(readValues_takes t.typed h).all]
  rfl

/-- The position of the primary key is one of the tuple. -/
theorem exists_primaryKey {u : Tuple} {p : Nat} (h : u.schema.primaryKey = some p) :
    ∃ d, u.values[p]? = some d ∧ u.primaryKey? = some d := by
  have hlt : p < u.values.length := by
    have hlength := congrArg List.length u.typed
    rw [List.length_map, List.length_map] at hlength
    exact hlength ▸ u.schema.key_lt p h
  exact ⟨u.values[p], List.getElem?_eq_getElem hlt, by simp [primaryKey?, h, hlt]⟩

end Tuple

/-- Different values of one type have different bytes: even where the length of a string does not
fit its field, the bytes behind that field are those of the string. -/
theorem Datum.encode_injective {d d' : Datum} (htype : d.type = d'.type)
    (h : d.encode = d'.encode) : d = d' := by
  cases d with
  | int v =>
    cases d' with
    | int v' =>
      have h : Bytes.bigEndian 8 v.toUInt64.toNat = Bytes.bigEndian 8 v'.toUInt64.toNat := h
      have hread := (Reader.int_takes v).all
      rw [h, (Reader.int_takes v').all] at hread
      rw [Except.ok.inj hread]
    | string s' => cases htype
  | string s =>
    cases d' with
    | int v' => cases htype
    | string s' =>
      have hbytes : Utf8.encode s = Utf8.encode s' :=
        List.append_inj_right h (by rw [Bytes.length_bigEndian, Bytes.length_bigEndian])
      rw [Utf8.encode_injective hbytes]

/-! ## Schemas -/

/-- The bytes of an attribute's name can be counted. -/
def Attribute.Fits (a : Attribute) : Prop := (Utf8.encode a.name).length < 2 ^ 32

namespace Schema

/-- The parts of a schema fit the fields of its record: what is counted has 32 bits, and a sign
takes one of those of the key's position. -/
structure Recordable (s : Schema) : Prop where
  name : (Utf8.encode s.name).length < 2 ^ 32
  arity : s.arity < 2 ^ 32
  key : ∀ p ∈ s.primaryKey, p < 2 ^ 31
  attributes : ∀ a ∈ s.attributes, a.Fits

/-- The names fit their fields, and the number of attributes fits that of a key's position. -/
structure Fits (s : Schema) : Prop where
  name : (Utf8.encode s.name).length < 2 ^ 32
  arity : s.arity < 2 ^ 31
  attributes : ∀ a ∈ s.attributes, (Utf8.encode a.name).length < 2 ^ 32

theorem Fits.recordable {s : Schema} (h : s.Fits) : s.Recordable where
  name := h.name
  arity := Nat.lt_trans h.arity (by decide)
  key p hp := Nat.lt_trans (s.key_lt p hp) h.arity
  attributes := h.attributes

theorem readKey_takes {name : String} {key : Option Nat} (h : ∀ p ∈ key, p < 2 ^ 31) :
    (readKey name).Takes (Field.i32 (keyField key)).encode key := by
  refine (Reader.i32_takes (keyField key)).map ?_
  cases key with
  | none => exact .of_pure rfl
  | some p =>
    have hp := h p rfl
    have hint : (keyField (some p)).toInt = p := Int32.toInt_ofNat_of_lt hp
    generalize keyField (some p) = k at hint
    have hneg : ¬ k < 0 := by
      rw [Int32.lt_iff_toInt_lt, hint]
      simp
    have hone : ¬ k = -1 := by
      rintro rfl
      simp at hint
    rw [if_neg hone, if_neg hneg, hint]
    exact .of_pure rfl

theorem readAttribute_takes {a : Attribute} (h : a.Fits) :
    readAttribute.Takes (Field.encodeAll [.string a.name, .u8 a.type.tag]) a := by
  refine (Reader.string_takes h).bind ((Reader.u8_takes a.type.tag).map ?_)
  rw [Ty.ofTag?_tag]
  exact .of_pure rfl

theorem readAttributes_takes {attributes : List Attribute} (h : ∀ a ∈ attributes, a.Fits) :
    (readAttributes attributes.length).Takes
      (Field.encodeAll (attributes.flatMap fun a => [.string a.name, .u8 a.type.tag]))
      attributes := by
  induction attributes with
  | nil => exact .of_pure rfl
  | cons a attributes ih =>
    obtain ⟨hfirst, hrest⟩ := List.forall_mem_cons.1 h
    have hencode : Field.encodeAll
        ((a :: attributes).flatMap fun a => [.string a.name, .u8 a.type.tag])
          = Field.encodeAll [.string a.name, .u8 a.type.tag] ++ Field.encodeAll
            (attributes.flatMap fun a => [.string a.name, .u8 a.type.tag]) := by
      simp only [Field.encodeAll, List.flatMap_cons, List.flatMap_append]
    rw [hencode]
    exact (readAttribute_takes hfirst).bind ((ih hrest).map (.of_pure rfl))

theorem readDefinition_takes {s : Schema} (h : s.Recordable) :
    readDefinition.Takes s.encode (s.name, s.attributes, s.primaryKey) := by
  have hcount : (UInt32.ofNat s.arity).toNat = s.attributes.length :=
    UInt32.toNat_ofNat_of_lt' h.arity
  have hencode : s.encode = (Field.string s.name).encode
      ++ ((Field.u32 (UInt32.ofNat s.arity)).encode
        ++ ((Field.i32 (keyField s.primaryKey)).encode
          ++ Field.encodeAll
            (s.attributes.flatMap fun a => [.string a.name, .u8 a.type.tag]))) := by
    simp [encode, fields, Field.encodeAll]
  rw [hencode]
  refine (Reader.string_takes h.name).bind ((Reader.u32_takes _).bind
    ((readKey_takes h.key).bind ?_))
  rw [hcount]
  exact (readAttributes_takes h.attributes).map (.of_pure rfl)

/-- What a schema consists of defines it. -/
theorem define_eq_ok (s : Schema) : define s.name s.attributes s.primaryKey = .ok s := by
  obtain ⟨name, attributes, primaryKey, hne, hnodup, hkey⟩ := s
  have hnone := firstRepeated_eq_none.2 ⟨hnodup, fun n _ => List.not_mem_nil⟩
  unfold define
  rw [dif_neg hne]
  split
  · rename_i hdup
    rw [hnone] at hdup
    cases hdup
  · cases primaryKey with
    | none => rfl
    | some p => exact dif_pos (hkey p rfl)

/-- A definition says what the schema consists of. -/
theorem eq_of_define {name : String} {attributes : List Attribute} {primaryKey : Option Nat}
    {s : Schema} (h : define name attributes primaryKey = .ok s) :
    s.name = name ∧ s.attributes = attributes ∧ s.primaryKey = primaryKey := by
  unfold define at h
  split at h
  · cases h
  · split at h
    · cases h
    · cases primaryKey with
      | none =>
        cases h
        exact ⟨rfl, rfl, rfl⟩
      | some p =>
        dsimp only at h
        split at h
        · cases h
          exact ⟨rfl, rfl, rfl⟩
        · cases h

/-- There is a schema for what passes the checks of a definition. -/
theorem exists_define_iff {name : String} {attributes : List Attribute} {primaryKey : Option Nat} :
    (∃ s, define name attributes primaryKey = .ok s) ↔ attributes ≠ []
      ∧ (attributes.map (·.name)).Nodup ∧ ∀ p ∈ primaryKey, p < attributes.length := by
  constructor
  · rintro ⟨s, h⟩
    obtain ⟨rfl, rfl, rfl⟩ := eq_of_define h
    exact ⟨s.attributes_ne_nil, s.names_nodup, s.key_lt⟩
  · rintro ⟨hne, hnodup, hkey⟩
    exact ⟨_, define_eq_ok ⟨name, attributes, primaryKey, hne, hnodup, hkey⟩⟩

/-- A schema that fits is read back from its record. -/
theorem decode_encode {s : Schema} (h : s.Recordable) : decode s.encode = .ok s := by
  unfold decode
  rw [(readDefinition_takes h).all]
  dsimp only [bind, Except.bind]
  rw [define_eq_ok]
  rfl

end Schema

end RelQuery
