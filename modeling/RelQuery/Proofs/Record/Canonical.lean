/-
  Records have one form: whatever is read from bytes, these bytes are the ones it is written as,
  and bytes that nothing is written as are a storage fault.

  No tags are written, so the reader alone decides where a field ends. A read is strict if the
  bytes it takes are always those of the value it gives (`Read.Strict`); reads in sequence are
  strict if each of them is (`Read.Strict.bind`). With `Read.Takes`, which is the way back, reading
  a whole record succeeds exactly on what was written.

  Main statements: `Tuple.decode_gives_values_iff` and `Schema.decode_gives_schema_iff`.
-/
import RelQuery.Execution
import RelQuery.Proofs.Bytes
import RelQuery.Proofs.Except
import RelQuery.Proofs.Record

namespace RelQuery

/-! ## Strict reads -/

/-- What a broken record is. -/
def Error.IsStorageFault (e : Error) : Prop := e.kind = .storageFault

/-- The read gives a value only for bytes that it can be written as, stops where they do, and
fails with a storage fault. -/
structure Read.Strict {α : Type} (x : Read α) (written : α → Bytes → Prop) : Prop where
  gives : ∀ {r s : Reader} {a : α}, x.run r = (.ok a, s) →
    ∃ bytes, r.rest = bytes ++ s.rest ∧ written a bytes
  fails : ∀ r, FailsOnly Error.IsStorageFault (x.run r).1

namespace Read.Strict

open Read.Takes (run_bind)

variable {α β : Type} {written written' : α → Bytes → Prop} {x : Read α}

theorem of_pure {a : α} (h : written a []) : Strict (pure a) written where
  gives hr := by
    cases hr
    exact ⟨[], rfl, h⟩
  fails _ := .ok a

theorem of_throw {e : Error} (h : e.IsStorageFault) : Strict (throw e : Read α) written where
  gives hr := by cases hr
  fails _ := .error h

theorem mono (hx : x.Strict written) (h : ∀ a bytes, written a bytes → written' a bytes) :
    x.Strict written' where
  gives hr := by
    obtain ⟨bytes, hbytes, ha⟩ := hx.gives hr
    exact ⟨bytes, hbytes, h _ _ ha⟩
  fails := hx.fails

/-- What two reads in sequence give stands for what the first one took, with what the second one
took behind it. -/
theorem bind {f : α → Read β} {T : α → β → Bytes → Prop} (hx : x.Strict written)
    (hf : ∀ a, (f a).Strict (T a)) :
    (x >>= f).Strict fun b bytes =>
      ∃ a front back, written a front ∧ T a b back ∧ bytes = front ++ back where
  gives {r s b} hr := by
    rw [run_bind] at hr
    generalize hxr : x.run r = given at hr
    obtain ⟨a | a, r'⟩ := given
    · cases hr
    · obtain ⟨front, hfront, ha⟩ := hx.gives hxr
      obtain ⟨back, hback, hb⟩ := (hf a).gives (hr : (f a).run r' = (.ok b, s))
      exact ⟨front ++ back, by rw [hfront, hback, List.append_assoc],
        a, front, back, ha, hb, rfl⟩
  fails r := by
    rw [run_bind]
    have hfails := hx.fails r
    generalize x.run r = given at hfails
    obtain ⟨a | a, r'⟩ := given
    · exact .error (hfails a rfl)
    · exact (hf a).fails r'

/-- The read may be followed by a computation that takes nothing more. -/
theorem map {f : α → Read β} {T : β → Bytes → Prop} (hx : x.Strict written)
    (hf : ∀ a, (f a).Strict fun b bytes => bytes = [] ∧ ∀ front, written a front → T b front) :
    (x >>= f).Strict T := by
  refine (hx.bind hf).mono ?_
  rintro b bytes ⟨a, front, back, ha, ⟨rfl, hb⟩, rfl⟩
  rw [List.append_nil]
  exact hb front ha

/-- A record from which a value is read whole is one that it can be written as. -/
theorem of_all (hx : x.Strict written) {bytes : Bytes} {a : α} (h : x.all bytes = .ok a) :
    written a bytes := by
  rw [Read.all, Reader.ofBytes, run_bind] at h
  generalize hxr : x.run ⟨0, bytes⟩ = given at h
  obtain ⟨b | b, offset, rest⟩ := given
  · cases h
  · obtain ⟨front, hfront, hb⟩ := hx.gives hxr
    cases rest with
    | nil =>
      cases h
      rwa [show bytes = front by simpa using hfront]
    | cons => cases h

theorem all_failsOnly (hx : x.Strict written) (bytes : Bytes) :
    FailsOnly Error.IsStorageFault (x.all bytes) := by
  have hfails := hx.fails (.ofBytes bytes)
  rw [Read.all, run_bind]
  generalize x.run (.ofBytes bytes) = given at hfails
  obtain ⟨b | b, offset, rest⟩ := given
  · exact .error (hfails b rfl)
  · cases rest with
    | nil => exact .ok b
    | cons => exact .error rfl

end Read.Strict

/-! ## Fields -/

namespace Reader

open Read.Strict (of_pure of_throw)

theorem take_strict (n : Nat) :
    (take n).Strict fun taken bytes => taken = bytes ∧ bytes.length = n where
  gives {r s taken} hr := by
    by_cases h : n ≤ r.rest.length
    · rw [run_take h] at hr
      cases hr
      exact ⟨r.rest.take n, (List.take_append_drop n r.rest).symm, rfl, List.length_take_of_le h⟩
    · rw [run_take_of_lt (Nat.lt_of_not_le h)] at hr
      cases hr
  fails r := by
    by_cases h : n ≤ r.rest.length
    · rw [run_take h]
      exact .ok _
    · rw [run_take_of_lt (Nat.lt_of_not_le h)]
      exact .error rfl

theorem nat_strict (width : Nat) :
    (nat width).Strict fun n bytes => n < Nat.pow 256 width ∧ bytes = Bytes.bigEndian width n := by
  refine (take_strict width).map fun taken => of_pure ⟨rfl, ?_⟩
  rintro _ ⟨rfl, rfl⟩
  exact ⟨taken.toNat_lt, taken.bigEndian_toNat.symm⟩

theorem u8_strict : u8.Strict fun v bytes => bytes = [v] := by
  refine (nat_strict 1).map fun n => of_pure ⟨rfl, ?_⟩
  rintro _ ⟨-, rfl⟩
  simp [Bytes.bigEndian, Nat.pow]

theorem u32_strict : u32.Strict fun v bytes => bytes = Bytes.bigEndian 4 v.toNat := by
  refine (nat_strict 4).map fun n => of_pure ⟨rfl, ?_⟩
  rintro _ ⟨hn, rfl⟩
  rw [UInt32.toNat_ofNat_of_lt' hn]

theorem i32_strict : i32.Strict fun v bytes => bytes = (Field.i32 v).encode :=
  u32_strict.map fun _ => of_pure ⟨rfl, fun _ h => h⟩

theorem int_strict : int.Strict fun v bytes => bytes = (Field.int v).encode := by
  refine (nat_strict 8).map fun n => of_pure ⟨rfl, ?_⟩
  rintro _ ⟨hn, rfl⟩
  show _ = Bytes.bigEndian 8 (UInt64.ofNat n).toNat
  rw [UInt64.toNat_ofNat_of_lt' hn]

/-- A length and then as many bytes, which have to be UTF-8. -/
theorem string_strict : string.Strict fun s bytes =>
    (Utf8.encode s).length < 2 ^ 32 ∧ bytes = (Field.string s).encode := by
  refine ((nat_strict 4).bind
    (T := fun length s bytes => bytes = Utf8.encode s ∧ bytes.length = length)
    fun length => (take_strict length).map fun taken => ?_).mono ?_
  · cases h : Utf8.decode taken with
    | ok s =>
      refine of_pure ⟨rfl, ?_⟩
      rintro _ ⟨rfl, hlength⟩
      exact ⟨(Utf8.encode_of_decode h).symm, hlength⟩
    | error fault => cases fault <;> exact of_throw rfl
  · rintro s bytes ⟨length, front, back, ⟨hlt, rfl⟩, ⟨rfl, rfl⟩, rfl⟩
    exact ⟨hlt, rfl⟩

end Reader

/-! ## Rows -/

namespace Tuple

open Read.Strict (of_pure)

theorem typed_strict (ty : Ty) :
    (Reader.typed ty).Strict fun d bytes => d.val.Fits ∧ bytes = d.val.encode := by
  cases ty with
  | integer => exact Reader.int_strict.map fun _ => of_pure ⟨rfl, fun _ h => ⟨trivial, h⟩⟩
  | string => exact Reader.string_strict.map fun _ => of_pure ⟨rfl, fun _ h => h⟩

/-- The types alone say where one value ends and the next one begins. -/
theorem readValues_strict (attributes : List Attribute) :
    (readValues attributes).Strict fun values bytes =>
      (∀ d ∈ values.val, d.Fits) ∧ bytes = values.val.flatMap Datum.encode := by
  induction attributes with
  | nil => exact of_pure ⟨nofun, rfl⟩
  | cons a attributes ih =>
    refine ((typed_strict a.type).bind
      (T := fun d all bytes => ∃ values, all.val = d.val :: values ∧ (∀ d ∈ values, d.Fits)
        ∧ bytes = values.flatMap Datum.encode)
      fun d => ih.map fun values => of_pure ⟨rfl, fun _ h => ⟨values.val, rfl, h⟩⟩).mono ?_
    rintro ⟨_, -⟩ bytes ⟨d, front, back, ⟨hd, rfl⟩, ⟨values, rfl, hvalues, rfl⟩, rfl⟩
    exact ⟨List.forall_mem_cons.2 ⟨hd, hvalues⟩, List.flatMap_cons.symm⟩

/-- Rows are read from their own records and from nothing else. -/
theorem decode_eq_ok_iff {schema : Schema} {bytes : Bytes} {t : Tuple} :
    decode schema bytes = .ok t
      ↔ t.schema = schema ∧ (∀ d ∈ t.values, d.Fits) ∧ t.encode = bytes := by
  constructor
  · intro h
    obtain ⟨⟨values, htypes⟩, hvalues, h⟩ := exists_of_bind_eq_ok h
    cases h
    obtain ⟨hfits, hbytes⟩ := (readValues_strict schema.attributes).of_all hvalues
    exact ⟨rfl, hfits, hbytes.symm⟩
  · rintro ⟨rfl, hfits, rfl⟩
    exact decode_encode hfits

theorem decode_failsOnly (schema : Schema) (bytes : Bytes) :
    FailsOnly Error.IsStorageFault (decode schema bytes) :=
  ((readValues_strict schema.attributes).all_failsOnly bytes).bind fun _ _ => .ok _

theorem encode_injective {t u : Tuple} (hschema : t.schema = u.schema)
    (ht : ∀ d ∈ t.values, d.Fits) (hu : ∀ d ∈ u.values, d.Fits) (h : t.encode = u.encode) :
    t = u := by
  have hread : decode t.schema t.encode = .ok u := decode_eq_ok_iff.2 ⟨hschema.symm, hu, h.symm⟩
  rw [decode_encode ht] at hread
  exact Except.ok.inj hread

theorem type_of_getElem? {t : Tuple} {p : Nat} {d : Datum} (h : t.values[p]? = some d) :
    (t.schema.attributes.map (·.type))[p]? = some d.type := by
  have htypes : t.values.map (·.type) = t.schema.attributes.map (·.type) := t.typed
  rw [← htypes, List.getElem?_map, h]
  rfl

/-- Tuples of one relation that are stored under the same key have the same primary key. -/
theorem primaryKey?_of_keyOf_eq {t u : Tuple} (hschema : t.schema = u.schema) {p : Nat}
    (hp : t.schema.primaryKey = some p) {store store' : Store}
    (h : (Execution.keyOf store t).1 = (Execution.keyOf store' u).1) :
    t.primaryKey? = u.primaryKey? := by
  obtain ⟨d, hd, hkey⟩ := exists_primaryKey hp
  obtain ⟨d', hd', hkey'⟩ := exists_primaryKey (hschema ▸ hp)
  have hencode : d.encode = d'.encode := by
    unfold Execution.keyOf at h
    rwa [hkey, hkey'] at h
  have htype : d.type = d'.type := by
    have htype := type_of_getElem? hd
    rw [hschema, type_of_getElem? hd'] at htype
    exact (Option.some.inj htype).symm
  rw [hkey, hkey', Datum.encode_injective htype hencode]

/-- `decode` gives just the values that pass `checkValues` and fit, for the bytes that they are
written as. So rows and records determine each other, values of one type are told apart by their
bytes, and the keys of `keyOf` are different if the primary keys are. -/
theorem decode_gives_values_iff (schema : Schema) :
    (∀ bytes values, (∃ t, decode schema bytes = .ok t ∧ t.values = values)
        ↔ schema.checkValues values = .ok () ∧ (∀ d ∈ values, d.Fits)
          ∧ values.flatMap Datum.encode = bytes)
      ∧ (∀ bytes e, decode schema bytes = .error e → e.kind = .storageFault)
      ∧ (∀ t u : Tuple, t.schema = schema → u.schema = schema → (∀ d ∈ t.values, d.Fits) →
        (∀ d ∈ u.values, d.Fits) → t.encode = u.encode → t = u)
      ∧ (∀ t : Tuple, t.schema = schema → (∀ d ∈ t.values, d.Fits) →
        decode schema t.encode = .ok t)
      ∧ (∀ bytes t, decode schema bytes = .ok t → t.schema = schema ∧ t.encode = bytes)
      ∧ (∀ d d' : Datum, d.type = d'.type → d.encode = d'.encode → d = d')
      ∧ ∀ p, schema.primaryKey = some p → ∀ (t u : Tuple) (store store' : Store),
        t.schema = schema → u.schema = schema →
        (Execution.keyOf store t).1 = (Execution.keyOf store' u).1 →
        t.primaryKey? = u.primaryKey? := by
  refine ⟨fun bytes values => ⟨?_, ?_⟩, decode_failsOnly schema, ?_, ?_, ?_, ?_, ?_⟩
  · rintro ⟨t, hdecode, rfl⟩
    obtain ⟨rfl, hfits, hbytes⟩ := decode_eq_ok_iff.1 hdecode
    exact ⟨Schema.checkValues_eq_ok_iff.2 t.typed, hfits, hbytes⟩
  · rintro ⟨hcheck, hfits, hbytes⟩
    have htyped := Schema.checkValues_eq_ok_iff.1 hcheck
    exact ⟨⟨schema, values, htyped⟩, decode_eq_ok_iff.2 ⟨rfl, hfits, hbytes⟩, rfl⟩
  · intro t u ht hu
    exact encode_injective (ht.trans hu.symm)
  · rintro t rfl hfits
    exact decode_encode hfits
  · intro bytes t hdecode
    obtain ⟨hschema, -, hbytes⟩ := decode_eq_ok_iff.1 hdecode
    exact ⟨hschema, hbytes⟩
  · intro d d' htype
    exact Datum.encode_injective htype
  · rintro p hp t u store store' rfl hu
    exact primaryKey?_of_keyOf_eq hu.symm hp

/-- Numbered labels, by number. -/
def labels : Schema :=
  ⟨"labels", [⟨"n", .integer⟩, ⟨"label", .string⟩], some 0, by decide, by decide, by decide⟩

/-- A label. -/
def label (n : Int64) (text : String) : Tuple := ⟨labels, [.int n, .string text], rfl⟩

/-- The label of 7 is read from its record, and labels of 7 and 8 are stored under different keys
though they say the same. -/
theorem decode_label : (∃ t, decode labels [0, 0, 0, 0, 0, 0, 0, 7, 0, 0, 0, 1, 97] = .ok t
      ∧ t.values = [.int 7, .string "a"])
    ∧ (Execution.keyOf .volatile (label 7 "a")).1
      ≠ (Execution.keyOf .volatile (label 8 "a")).1 := by
  obtain ⟨hgives, -, -, -, -, -, hkeys⟩ := decode_gives_values_iff labels
  have htext : (Utf8.encode "a").length < 2 ^ 32 := by decide
  refine ⟨(hgives _ _).2 ⟨by decide, by simpa [Datum.Fits] using htext, by decide⟩, fun h => ?_⟩
  have hsame := hkeys 0 rfl (label 7 "a") (label 8 "a") .volatile .volatile rfl rfl h
  exact absurd hsame (by decide)

end Tuple

/-! ## Schemas -/

namespace Schema

open Read.Strict (of_pure of_throw)

theorem keyField_toNat {p : Int32} (h : ¬ p < 0) :
    p.toInt.toNat < 2 ^ 31 ∧ keyField (some p.toInt.toNat) = p := by
  have hpos : 0 ≤ p.toInt := by
    rw [Int32.lt_iff_toInt_lt] at h
    exact Int.not_lt.1 h
  have hlt : p.toInt.toNat < 2 ^ 31 := by
    have := p.toInt_lt
    omega
  refine ⟨hlt, Int32.toInt_inj.1 ?_⟩
  show (Int32.ofNat p.toInt.toNat).toInt = p.toInt
  rw [Int32.toInt_ofNat_of_lt hlt, Int.toNat_of_nonneg hpos]

theorem readKey_strict (name : String) : (readKey name).Strict fun key bytes =>
    (∀ p ∈ key, p < 2 ^ 31) ∧ bytes = (Field.i32 (keyField key)).encode := by
  refine Reader.i32_strict.map fun p => ?_
  split
  · rename_i hnone
    exact of_pure ⟨rfl, fun _ h => ⟨nofun, by rw [h, hnone]; rfl⟩⟩
  · split
    · exact of_throw rfl
    · rename_i hneg
      obtain ⟨hlt, hkey⟩ := keyField_toNat hneg
      refine of_pure ⟨rfl, fun _ h => ⟨?_, by rw [h, hkey]⟩⟩
      simpa using hlt

/-- The fields of an attribute. -/
def attributeFields (a : Attribute) : List Field := [.string a.name, .u8 a.type.tag]

theorem readAttribute_strict : readAttribute.Strict fun a bytes =>
    a.Fits ∧ bytes = Field.encodeAll (attributeFields a) := by
  refine (Reader.string_strict.bind
    (T := fun name a bytes => a.name = name ∧ bytes = [a.type.tag])
    fun name => Reader.u8_strict.map fun tag => ?_).mono ?_
  · cases h : Ty.ofTag? tag with
    | none => exact of_throw rfl
    | some type =>
      refine of_pure ⟨rfl, fun front hfront => ⟨rfl, ?_⟩⟩
      rw [hfront, Ty.ofTag?_eq_some_iff.1 h]
  · rintro a bytes ⟨name, front, back, ⟨hname, rfl⟩, ⟨rfl, rfl⟩, rfl⟩
    exact ⟨hname, rfl⟩

theorem readAttributes_strict (count : Nat) : (readAttributes count).Strict fun attributes bytes =>
    attributes.length = count ∧ (∀ a ∈ attributes, a.Fits)
      ∧ bytes = Field.encodeAll (attributes.flatMap attributeFields) := by
  induction count with
  | zero => exact of_pure ⟨rfl, nofun, rfl⟩
  | succ count ih =>
    refine (readAttribute_strict.bind
      (T := fun a all bytes => ∃ attributes, all = a :: attributes ∧ attributes.length = count
        ∧ (∀ a ∈ attributes, a.Fits)
        ∧ bytes = Field.encodeAll (attributes.flatMap attributeFields))
      fun a => ih.map fun attributes => of_pure ⟨rfl, fun _ h => ⟨attributes, rfl, h⟩⟩).mono ?_
    rintro _ bytes ⟨a, front, back, ⟨ha, rfl⟩, ⟨attributes, rfl, hlength, hnames, rfl⟩, rfl⟩
    refine ⟨congrArg (· + 1) hlength, List.forall_mem_cons.2 ⟨ha, hnames⟩, ?_⟩
    rw [List.flatMap_cons, Field.encodeAll, Field.encodeAll, Field.encodeAll, List.flatMap_append]

/-- The count in front of the attributes is theirs, and the key's field is that of its position. -/
theorem readDefinition_strict : readDefinition.Strict fun (name, attributes, key) bytes =>
    (Utf8.encode name).length < 2 ^ 32 ∧ attributes.length < 2 ^ 32 ∧ (∀ p ∈ key, p < 2 ^ 31)
      ∧ (∀ a ∈ attributes, a.Fits)
      ∧ bytes = Field.encodeAll ([.string name, .u32 (UInt32.ofNat attributes.length),
        .i32 (keyField key)] ++ attributes.flatMap attributeFields) := by
  refine (Reader.string_strict.bind fun name => Reader.u32_strict.bind fun count =>
    (readKey_strict name).bind fun key => (readAttributes_strict count.toNat).map
      (T := fun definition bytes => ∃ attributes, definition = (name, attributes, key)
        ∧ attributes.length = count.toNat
        ∧ (∀ a ∈ attributes, a.Fits)
        ∧ bytes = Field.encodeAll (attributes.flatMap attributeFields))
      fun attributes => of_pure ⟨rfl, fun _ h => ⟨attributes, rfl, h⟩⟩).mono ?_
  rintro _ bytes ⟨name, _, _, ⟨hname, rfl⟩, ⟨count, _, _, rfl, ⟨key, _, _, ⟨hkey, rfl⟩,
    ⟨attributes, rfl, hlength, hnames, rfl⟩, rfl⟩, rfl⟩, rfl⟩
  have hcount : UInt32.ofNat attributes.length = count := by rw [hlength, UInt32.ofNat_toNat]
  refine ⟨hname, hlength ▸ count.toNat_lt, hkey, hnames, ?_⟩
  simp only [hcount, Field.encodeAll, List.cons_append, List.nil_append, List.flatMap_cons]
  rfl

/-- Schemas are read from their own records and from nothing else. -/
theorem decode_eq_ok_iff {bytes : Bytes} {s : Schema} :
    decode bytes = .ok s ↔ s.Recordable ∧ s.encode = bytes := by
  constructor
  · intro h
    obtain ⟨⟨name, attributes, key⟩, hread, h⟩ := exists_of_bind_eq_ok h
    obtain ⟨hname, harity, hkey, hnames, hbytes⟩ := readDefinition_strict.of_all hread
    dsimp only at h
    split at h
    · rename_i s' hdefine
      cases h
      obtain ⟨rfl, rfl, rfl⟩ := eq_of_define hdefine
      exact ⟨⟨hname, harity, hkey, hnames⟩, hbytes.symm⟩
    · cases h
  · rintro ⟨h, rfl⟩
    exact decode_encode h

/-- A definition that could not have been made is a storage fault, too. -/
theorem decode_failsOnly (bytes : Bytes) : FailsOnly Error.IsStorageFault (decode bytes) := by
  refine (readDefinition_strict.all_failsOnly bytes).bind fun definition _ => ?_
  dsimp only
  split
  · exact .ok _
  · exact .error rfl

/-- A definition is read as a schema if it passes the checks of `define`. -/
theorem exists_decode_iff {bytes : Bytes} {name : String} {attributes : List Attribute}
    {primaryKey : Option Nat}
    (h : readDefinition.all bytes = .ok (name, attributes, primaryKey)) :
    (∃ s, decode bytes = .ok s) ↔ attributes ≠ [] ∧ (attributes.map (·.name)).Nodup
      ∧ ∀ p ∈ primaryKey, p < attributes.length := by
  rw [decode, h]
  refine Iff.trans ?_ (exists_define_iff : (∃ s, define name attributes primaryKey = .ok s) ↔ _)
  dsimp only [bind, Except.bind]
  cases define name attributes primaryKey with
  | ok s => exact Iff.rfl
  | error e => exact ⟨nofun, nofun⟩

/-- `decode` gives a schema for the bytes that `encode` writes it as, if it is `Recordable`, and for
no others. A definition that breaks one of the three checks is no schema, though it can be read as a
definition. -/
theorem decode_gives_schema_iff (bytes : Bytes) :
    (∀ s, decode bytes = .ok s
        ↔ (s.attributes ≠ [] ∧ (s.attributes.map (·.name)).Nodup
            ∧ ∀ p ∈ s.primaryKey, p < s.attributes.length)
          ∧ s.Recordable ∧ s.encode = bytes)
      ∧ (∀ name attributes primaryKey,
        readDefinition.all bytes = .ok (name, attributes, primaryKey) →
          ((∃ s, decode bytes = .ok s) ↔ attributes ≠ [] ∧ (attributes.map (·.name)).Nodup
            ∧ ∀ p ∈ primaryKey, p < attributes.length))
      ∧ ∀ e, decode bytes = .error e → e.kind = .storageFault := by
  refine ⟨fun s => ?_, fun _ _ _ => exists_decode_iff, decode_failsOnly bytes⟩
  rw [decode_eq_ok_iff]
  exact (and_iff_right ⟨s.attributes_ne_nil, s.names_nodup, s.key_lt⟩).symm

/-- A relation of one integer is read from its record. What is written as a definition without
attributes is read as one, but there is no schema for it. A record that ends before its name is a
storage fault. -/
theorem decode_oneInteger :
    (∃ s, decode [0, 0, 0, 1, 97, 0, 0, 0, 1, 255, 255, 255, 255, 0, 0, 0, 1, 110, 1] = .ok s
        ∧ s.name = "a" ∧ s.attributes = [⟨"n", .integer⟩] ∧ s.primaryKey = none)
      ∧ (¬ ∃ s, decode [0, 0, 0, 1, 97, 0, 0, 0, 0, 255, 255, 255, 255] = .ok s)
      ∧ ∃ e, decode [0, 0, 0, 1] = .error e ∧ e.kind = .storageFault := by
  obtain ⟨hgives, -, -⟩ := decode_gives_schema_iff
    [0, 0, 0, 1, 97, 0, 0, 0, 1, 255, 255, 255, 255, 0, 0, 0, 1, 110, 1]
  obtain ⟨-, hchecked, -⟩ := decode_gives_schema_iff
    [0, 0, 0, 1, 97, 0, 0, 0, 0, 255, 255, 255, 255]
  obtain ⟨-, -, hfails⟩ := decode_gives_schema_iff [0, 0, 0, 1]
  have hname : (Utf8.encode "n").length < 2 ^ 32 := by decide
  have hn : ∀ a ∈ [Attribute.mk "n" .integer], a.Fits := List.forall_mem_singleton.2 hname
  refine ⟨⟨⟨"a", [⟨"n", .integer⟩], none, by decide, by decide, by decide⟩, (hgives _).2
    ⟨by decide, ⟨by decide, by decide, by decide, hn⟩, by decide⟩, rfl, rfl, rfl⟩, ?_, ?_⟩
  · intro h
    exact ((hchecked "a" [] none (by decide)).1 h).1 rfl
  · cases h : decode [0, 0, 0, 1] with
    | error e => exact ⟨e, rfl, hfails e h⟩
    | ok s => cases h

end Schema

end RelQuery
