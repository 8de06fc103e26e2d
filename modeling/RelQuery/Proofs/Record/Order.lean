/-
  The order of keys: tables are sorted by the bytes of their keys, and these are compared byte by
  byte without regard to what they stand for.

  Integers have one width, so their bytes stand in the order of the numbers that these write. Those
  are unsigned: the negative integers, whose first bit is set, come after all others. Strings have
  their length in front, so shorter ones come first, and only strings of one length are compared
  byte by byte.

  Main statement: `Datum.scanned_in_order`, on values of one type and on the scans of relations with
  a primary key, in memory and on disk.
-/
import RelQuery.Proofs.Bytes
import RelQuery.Proofs.Operator.Drain
import RelQuery.Proofs.Record.Canonical
import RelQuery.Proofs.Served

namespace RelQuery

namespace Datum

/-- Integers by the unsigned numbers of their bits, strings by the number of their bytes and then
byte by byte; integers come before strings. -/
def keyOrder : Datum → Datum → Ordering
  | int v, int w => compare v.toUInt64.toNat w.toUInt64.toNat
  | string s, string t =>
    (compare (Utf8.encode s).length (Utf8.encode t).length).then
      (compare (Utf8.encode s) (Utf8.encode t))
  | int _, string _ => .lt
  | string _, int _ => .gt

/-! ## Integers -/

theorem compare_encode_int (v w : Int64) :
    compare (int v).encode (int w).encode = (int v).keyOrder (int w) := by
  have hv : v.toUInt64.toNat < Nat.pow 256 8 := v.toUInt64.toNat_lt
  have hw : w.toUInt64.toNat < Nat.pow 256 8 := w.toUInt64.toNat_lt
  have horder := Bytes.compare_bigEndian 8 v.toUInt64.toNat w.toUInt64.toNat
  rwa [Nat.mod_eq_of_lt hv, Nat.mod_eq_of_lt hw] at horder

/-- Negative integers have the unsigned numbers behind those of all others. -/
theorem toNat_toUInt64 (v : Int64) :
    (v.toUInt64.toNat : Int) = if v.toInt < 0 then v.toInt + 2 ^ 64 else v.toInt := by
  have hint : v.toInt = v.toUInt64.toBitVec.toInt := rfl
  have hnat : v.toUInt64.toNat = v.toUInt64.toBitVec.toNat := rfl
  have hlt := v.toUInt64.toBitVec.isLt
  rw [hint, hnat, BitVec.toInt_eq_toNat_cond]
  split <;> split <;> omega

theorem keyOrder_of_nonneg_of_neg {v w : Int64} (hv : 0 ≤ v.toInt) (hw : w.toInt < 0) :
    (int v).keyOrder (int w) = .lt := by
  have hvn := toNat_toUInt64 v
  have hwn := toNat_toUInt64 w
  have hmin := w.le_toInt
  have hmax := v.toInt_lt
  rw [if_neg (by omega)] at hvn
  rw [if_pos hw] at hwn
  exact Nat.compare_eq_lt.2 (by omega)

/-- Integers of one sign are in the order of their values. -/
theorem keyOrder_of_sign_eq {v w : Int64} (h : v.toInt < 0 ↔ w.toInt < 0) :
    (int v).keyOrder (int w) = compare v.toInt w.toInt := by
  have hvn := toNat_toUInt64 v
  have hwn := toNat_toUInt64 w
  rw [keyOrder]
  rcases Int.lt_trichotomy v.toInt w.toInt with hlt | heq | hgt
  · rw [Int.compare_eq_lt.2 hlt, Nat.compare_eq_lt.2]
    split at hvn <;> split at hwn <;> omega
  · rw [Int.compare_eq_eq.2 heq, Nat.compare_eq_eq.2]
    split at hvn <;> split at hwn <;> omega
  · rw [Int.compare_eq_gt.2 hgt, Nat.compare_eq_gt.2]
    split at hvn <;> split at hwn <;> omega

/-! ## Strings -/

theorem compare_encode_string {s t : String} (hs : (string s).Fits) (ht : (string t).Fits) :
    compare (string s).encode (string t).encode = (string s).keyOrder (string t) := by
  have hs : (Utf8.encode s).length < Nat.pow 256 4 := hs
  have ht : (Utf8.encode t).length < Nat.pow 256 4 := ht
  have hwidth : (Bytes.bigEndian 4 (Utf8.encode s).length).length
      = (Bytes.bigEndian 4 (Utf8.encode t).length).length := by
    rw [Bytes.length_bigEndian, Bytes.length_bigEndian]
  have horder := Bytes.compare_append (b := Utf8.encode s) (d := Utf8.encode t) hwidth
  rwa [Bytes.compare_bigEndian, Nat.mod_eq_of_lt hs, Nat.mod_eq_of_lt ht] at horder

/-- The bytes of values of one type stand in the order of the values as keys. -/
theorem compare_encode {d e : Datum} (htype : d.type = e.type) (hd : d.Fits) (he : e.Fits) :
    compare d.encode e.encode = d.keyOrder e := by
  cases d with
  | int v =>
    cases e with
    | int w => exact compare_encode_int v w
    | string t => cases htype
  | string s =>
    cases e with
    | int w => cases htype
    | string t => exact compare_encode_string hd he

end Datum

/-! ## Scans -/

/-- The primary key of the first tuple comes before that of the second. -/
def Tuple.KeyBefore (t u : Tuple) : Prop :=
  ∃ d e, t.primaryKey? = some d ∧ u.primaryKey? = some e ∧ d.keyOrder e = .lt

/-- A tuple that was read from an entry under its key has that key. -/
theorem Tuple.HasKey.exists_primaryKey {u : Tuple} {key : Bytes} (h : u.HasKey key) {p : Nat}
    (hp : u.schema.primaryKey = some p) :
    ∃ d, u.values[p]? = some d ∧ u.primaryKey? = some d ∧ d.encode = key := by
  obtain ⟨d, hd, hkey⟩ := Tuple.exists_primaryKey hp
  unfold Tuple.HasKey at h
  rw [hp] at h
  dsimp only at h
  rw [hd] at h
  exact ⟨d, hd, hkey, Option.some.inj h⟩

/-- Entries of tuples under their keys that are sorted by their bytes are sorted by their keys. -/
theorem Schema.IsEntry.keyBefore {r : Schema} {p : Nat} (hp : r.primaryKey = some p)
    {e e' : Bytes × Bytes} (he : r.IsEntry e) (he' : r.IsEntry e')
    (hlt : compare e.1 e'.1 = .lt) {t u : Tuple} (ht : Tuple.decode r e.2 = .ok t)
    (hu : Tuple.decode r e'.2 = .ok u) : t.KeyBefore u := by
  obtain ⟨t', ht', htkey⟩ := he
  obtain ⟨u', hu', hukey⟩ := he'
  obtain rfl : t = t' := Except.ok.inj (ht.symm.trans ht')
  obtain rfl : u = u' := Except.ok.inj (hu.symm.trans hu')
  obtain ⟨htschema, htfits, -⟩ := Tuple.decode_eq_ok_iff.1 ht
  obtain ⟨huschema, hufits, -⟩ := Tuple.decode_eq_ok_iff.1 hu
  obtain ⟨d, hd, htprimary, htbytes⟩ := htkey.exists_primaryKey (htschema ▸ hp)
  obtain ⟨d', hd', huprimary, hubytes⟩ := hukey.exists_primaryKey (huschema ▸ hp)
  have htype : some d.type = some d'.type := by
    rw [← Tuple.type_of_getElem? hd, ← Tuple.type_of_getElem? hd', htschema, huschema]
  refine ⟨d, d', htprimary, huprimary, ?_⟩
  rw [← Datum.compare_encode (Option.some.inj htype) (htfits d (List.mem_of_getElem? hd))
    (hufits d' (List.mem_of_getElem? hd')), htbytes, hubytes]
  exact hlt

/-- The tuples of a relation with a primary key are in the order of their keys. -/
theorem Database.Intact.tuples_ordered {db : Database} (h : db.Intact) {name : String} {r : Schema}
    (hr : db.catalog.lookup? name = some r) {p : Nat} (hp : r.primaryKey = some p) :
    (db.store.tuples r).Pairwise Tuple.KeyBefore := by
  obtain ⟨t, ht, hentries⟩ := h name r hr
  rw [Store.tuples, Store.contents_eq_ok_iff.2 ht, List.pairwise_filterMap]
  refine t.sorted.imp_of_mem fun he he' hlt t ht u hu => ?_
  exact (hentries _ he).keyBefore hp (hentries _ he') hlt (eq_ok_of_toOption_eq_some ht)
    (eq_ok_of_toOption_eq_some hu)

/-- Values of one type have their bytes in `keyOrder`, in which the negative integers come last. In
an `Attained` state any scan of a relation with a primary key gives its tuples in this order
(`KeyBefore`). -/
theorem Datum.scanned_in_order :
    (∀ d e : Datum, d.type = e.type → d.Fits → e.Fits → compare d.encode e.encode = d.keyOrder e)
    ∧ (∀ v w : Int64,
      ((v.toInt < 0 ↔ w.toInt < 0) → (int v).keyOrder (int w) = compare v.toInt w.toInt)
      ∧ (0 ≤ v.toInt → w.toInt < 0 → (int v).keyOrder (int w) = .lt))
    ∧ ∀ n db, Session.Attained Request.FitsRows n db → ∀ name r p,
      db.catalog.lookup? name = some r → r.primaryKey = some p →
      ∀ filter, (Plan.scan r filter).Joinable →
        ∃ (op : Operator) (tuples : List Tuple), Operator.ofPlan (.scan r filter) = .ok op
          ∧ (∀ l, op.drained db.store l = .ok (tuples.map Row.base))
          ∧ tuples.Pairwise Tuple.KeyBefore := by
  refine ⟨fun d e => compare_encode, fun v w => ⟨keyOrder_of_sign_eq, keyOrder_of_nonneg_of_neg⟩,
    ?_⟩
  intro n db hdb name r p hr hp filter hfilter
  have hserves := hdb.intact.served name r hr
  obtain ⟨op, hop, hrows⟩ := Operator.drained_ofPlan (p := .scan r filter) hfilter
    ⟨by simpa [Plan.scans] using hserves, by simp [Plan.scans]⟩
  have hordered := hdb.intact.tuples_ordered hr hp
  refine ⟨op, (db.store.tuples r).filter fun t => filter.all (·.joins (.base t) (.base t)), hop,
    fun l => ?_, hordered.filter _⟩
  rw [hrows, Plan.rows, List.filter_map]
  rfl

namespace Session

/-- A relation of integers that are its keys. -/
def keyedNumbers : Schema := ⟨"a", [⟨"n", .integer⟩], some 0,
  List.cons_ne_nil _ _, List.pairwise_singleton _ _, fun _ hp => Option.some.inj hp ▸ Nat.one_pos⟩

/-- The database after it was given a negative integer and another one. -/
def withSigned : Database :=
  (Statement.request (.insert "a" [[.int (-1)], [.int 7]])).run.after
    ((Statement.request (.createTable "a" [⟨"n", .integer⟩] (some 0))).run.after
      ⟨.empty, Store.volatile.create Catalog.metadata, {}⟩ []) []

theorem attained_withSigned : Attained Request.FitsRows 0 withSigned := by
  have hempty : Attained Request.FitsRows 0 ⟨.empty, Store.volatile.create Catalog.metadata, {}⟩ :=
    .created (Database.create_eq rfl [])
  have hfits : Request.FitsRows (.insert "a" [[.int (-1)], [.int 7]]) := by
    simp [Request.FitsRows, Datum.Fits]
  exact (hempty.requested (r := .createTable "a" [⟨"n", .integer⟩] (some 0)) trivial (j := [])
    (k := 0) (by decide +kernel)).requested hfits (j := []) (k := 0) (by decide +kernel)

end Session

/-- Minus one is scanned behind seven, though it was given before it, and a longer string comes
behind a shorter one. -/
theorem Datum.scanned_in_order_withSigned :
    compare (int 7).encode (int (-1)).encode = .lt
      ∧ compare (string "b").encode (string "aa").encode = .lt
      ∧ (Session.withSigned.store.tuples Session.keyedNumbers).map (·.values)
          = [[.int 7], [.int (-1)]]
      ∧ ∃ (op : Operator) (tuples : List Tuple),
        Operator.ofPlan (.scan Session.keyedNumbers []) = .ok op
          ∧ (∀ l, op.drained Session.withSigned.store l = .ok (tuples.map Row.base))
          ∧ tuples.Pairwise Tuple.KeyBefore := by
  obtain ⟨hcompare, hsigns, hscan⟩ := Datum.scanned_in_order
  have hint := hcompare (int 7) (int (-1)) rfl trivial trivial
  have hlengths : (Utf8.encode "b").length < 2 ^ 32 ∧ (Utf8.encode "aa").length < 2 ^ 32 := by
    decide
  have hstring := hcompare (string "b") (string "aa") rfl hlengths.1 hlengths.2
  refine ⟨?_, ?_, by decide +kernel, ?_⟩
  · rw [hint]
    exact (hsigns 7 (-1)).2 (by decide) (by decide)
  · rw [hstring]
    decide
  · exact hscan 0 Session.withSigned Session.attained_withSigned "a" Session.keyedNumbers 0
      (by decide +kernel) rfl [] (by simp [Plan.Joinable])

end RelQuery
