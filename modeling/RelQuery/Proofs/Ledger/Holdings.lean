/-
  What relations hold, said without keys and records: with a primary key a row for each of its
  values, without one the rows in the order in which they were given.

  Keys of different values are different bytes, so a row replaces just the one with its key. A
  number that is given to a row comes after all that were given before, so the row becomes the last.

  Main statements: entering tuples into a table does to what it holds what adding their rows does
  (`Holdings.In.foldl_enter`), and reading the table shows that (`Holdings.In.shows`).
-/
import RelQuery.Proofs.Numbering
import Mathlib.Logic.Function.Basic

namespace RelQuery

open Database (enter)

/-! ## Holdings -/

/-- What a relation holds. -/
inductive Holdings where
  /-- With a primary key at this position: the row of each of its values. -/
  | keyed (position : Nat) (row? : Datum → Option (List Datum))
  /-- Without one: the rows as they were given. -/
  | listed (rows : List (List Datum))

namespace Holdings

/-- What a new relation holds. -/
def nothing : (primaryKey : Option Nat) → Holdings
  | some p => keyed p fun _ => none
  | none => listed []

/-- A row takes the place of the one with its key; without a key it comes after all others. -/
def add : Holdings → List Datum → Holdings
  | keyed p row?, row =>
    match row[p]? with
    | some d => keyed p (Function.update row? d (some row))
    | none => keyed p row?
  | listed rows, row => listed (rows ++ [row])

/-- How many numbers so many rows need. -/
def numbersFor : Holdings → Nat → Nat
  | keyed .., _ => 0
  | listed _, n => n

/-- The rows are all that is held, in the order of the bytes of their keys or as they were given. -/
def Shows : Holdings → List (List Datum) → Prop
  | keyed _ row?, rows => ∃ entries : List (Datum × List Datum), rows = entries.map (·.2)
      ∧ (∀ d row, (d, row) ∈ entries ↔ row? d = some row)
      ∧ entries.Pairwise fun a b => compare a.1.encode b.1.encode = .lt
  | listed given, rows => rows = given

theorem numbersFor_add (h : Holdings) (row : List Datum) (n : Nat) :
    (h.add row).numbersFor n = h.numbersFor n := by
  cases h with
  | keyed p row? => cases hd : row[p]? <;> simp [add, hd, numbersFor]
  | listed => rfl

theorem numbersFor_succ (h : Holdings) (n : Nat) :
    h.numbersFor (n + 1) = h.numbersFor 1 + h.numbersFor n := by
  cases h with
  | keyed => rfl
  | listed => exact Nat.add_comm n 1

end Holdings

/-! ## Rows and their records -/

/-- The record of a row. -/
def recordOf (row : List Datum) : Bytes := row.flatMap Datum.encode

/-- The row can be stored in the relation and read back. -/
structure Schema.Takes (r : Schema) (row : List Datum) : Prop where
  admits : r.Admits row
  fits : ∀ d ∈ row, d.Fits

namespace Schema.Takes

variable {r : Schema} {row row' : List Datum} {p : Nat} {d d' : Datum}

theorem decode_recordOf (h : r.Takes row) :
    Tuple.decode r (recordOf row) = .ok ⟨r, row, h.admits⟩ :=
  Tuple.decode_encode (t := ⟨r, row, h.admits⟩) h.fits

/-- Values at one position of a relation are of one type, so their bytes tell them apart. -/
theorem eq_of_encode_eq (h : r.Takes row) (h' : r.Takes row') (hd : row[p]? = some d)
    (hd' : row'[p]? = some d') (heq : d.encode = d'.encode) : d = d' := by
  have htype : (row.map (·.type))[p]? = (row'.map (·.type))[p]? := by
    rw [show row.map (·.type) = _ from h.admits, show row'.map (·.type) = _ from h'.admits]
  rw [List.getElem?_map, List.getElem?_map, hd, hd'] at htype
  exact Datum.encode_injective (Option.some.inj htype) heq

/-- Records of rows are read as these rows. -/
theorem values_of_records {rows : List (List Datum)} {entries : List (Bytes × Bytes)}
    (h : ∀ row ∈ rows, r.Takes row) (hrecords : entries.map (·.2) = rows.map recordOf) :
    (entries.filterMap fun e => (Tuple.decode r e.2).toOption).map (·.values) = rows := by
  induction rows generalizing entries with
  | nil =>
    obtain rfl : entries = [] := by simpa using hrecords
    rfl
  | cons row rows ih =>
    cases entries with
    | nil => cases hrecords
    | cons e entries =>
      obtain ⟨hfirst, hrest⟩ := List.cons.inj hrecords
      obtain ⟨hrow, hrows⟩ := List.forall_mem_cons.1 h
      have hfirst : e.2 = recordOf row := hfirst
      rw [List.filterMap_cons, hfirst, hrow.decode_recordOf]
      exact congrArg (row :: ·) (ih hrows hrest)

end Schema.Takes

/-! ## Tables -/

namespace Holdings

/-- The table has an entry for the row of each key, and no other. -/
structure KeyedIn (r : Schema) (p : Nat) (row? : Datum → Option (List Datum)) (t : Table) :
    Prop where
  key : r.primaryKey = some p
  stored : ∀ d row, row? d = some row →
    r.Takes row ∧ row[p]? = some d ∧ (d.encode, recordOf row) ∈ t.entries
  only : ∀ e ∈ t.entries, ∃ q : Datum × List Datum, row? q.1 = some q.2
    ∧ e = (q.1.encode, recordOf q.2)

/-- The table has the rows in their order, under numbers below the next one to give. -/
structure ListedIn (r : Schema) (rows : List (List Datum)) (next : Nat) (t : Table) : Prop where
  key : r.primaryKey = none
  takes : ∀ row ∈ rows, r.Takes row
  records : t.entries.map (·.2) = rows.map recordOf
  numbered : ∀ e ∈ t.entries, ∃ i < next, e.1 = Bytes.bigEndian 8 i

/-- The table of the relation has what is held. -/
def In (r : Schema) (next : Nat) (t : Table) : Holdings → Prop
  | keyed p row? => KeyedIn r p row? t
  | listed rows => ListedIn r rows next t

variable {r : Schema} {p next : Nat} {row? : Datum → Option (List Datum)} {t : Table}
  {rows : List (List Datum)} {h : Holdings}

theorem in_nothing (r : Schema) (next : Nat) : (nothing r.primaryKey).In r next .empty := by
  cases hp : r.primaryKey with
  | some p => exact ⟨hp, by simp, by simp [SortedMap.empty]⟩
  | none => exact ⟨hp, by simp, rfl, by simp [SortedMap.empty]⟩

theorem In.mono (hin : h.In r next t) {next' : Nat} (hle : next ≤ next') : h.In r next' t := by
  cases h with
  | keyed p row? => exact hin
  | listed rows =>
    exact ⟨hin.key, hin.takes, hin.records, fun e he =>
      (hin.numbered e he).imp fun _ hi => ⟨Nat.lt_of_lt_of_le hi.1 hle, hi.2⟩⟩

/-! ### Entering tuples -/

/-- A tuple under its key replaces the row of that key and leaves those of all other keys. -/
theorem KeyedIn.enter (hin : KeyedIn r p row? t) {u : Tuple} (hu : r.Takes u.values) {d : Datum}
    (hd : u.values[p]? = some d) :
    KeyedIn r p (Function.update row? d (some u.values)) (t.insert d.encode u.encode) where
  key := hin.key
  stored d' row hrow := by
    by_cases hsame : d' = d
    · subst hsame
      rw [Function.update_self] at hrow
      cases hrow
      exact ⟨hu, hd, SortedMap.mem_insert_iff.2 (.inl rfl)⟩
    · rw [Function.update_of_ne hsame] at hrow
      obtain ⟨htakes, hd', hmem⟩ := hin.stored d' row hrow
      have hne : d'.encode ≠ d.encode := fun heq => hsame (htakes.eq_of_encode_eq hu hd' hd heq)
      exact ⟨htakes, hd', SortedMap.mem_insert_iff.2 (.inr ⟨hne, hmem⟩)⟩
  only e he := by
    rcases SortedMap.mem_insert_iff.1 he with rfl | ⟨hne, hold⟩
    · exact ⟨(d, u.values), Function.update_self .., rfl⟩
    · obtain ⟨q, hq, rfl⟩ := hin.only e hold
      have hother : q.1 ≠ d := fun heq => hne (congrArg Datum.encode heq)
      exact ⟨q, by rw [Function.update_of_ne hother, hq], rfl⟩

/-- A tuple under the next number becomes the last. -/
theorem ListedIn.enter (hin : ListedIn r rows next t) {u : Tuple} (hu : r.Takes u.values)
    (hnext : next < 2 ^ 64) :
    ListedIn r (rows ++ [u.values]) (next + 1) (t.insert (Bytes.bigEndian 8 next) u.encode) := by
  have hnumbered : t.NumberedBelow next := hin.numbered
  refine ⟨hin.key, fun row hrow => ?_, ?_, hnumbered.insert hnext u.encode⟩
  · rcases List.mem_append.1 hrow with hrow | hrow
    · exact hin.takes row hrow
    · rwa [List.mem_singleton.1 hrow]
  · rw [hnumbered.entries_insert hnext, List.map_append, hin.records, List.map_append]
    rfl

/-- Entering a tuple does to the table what adding its row does to what is held. -/
theorem In.enter {n : UInt64} (hin : h.In r n.toNat t) {u : Tuple} (hu : r.Takes u.values)
    (hschema : u.schema = r) (hbound : n.toNat + h.numbersFor 1 < 2 ^ 64) :
    (Database.enter (t, n) u).2.toNat = n.toNat + h.numbersFor 1
      ∧ (h.add u.values).In r (Database.enter (t, n) u).2.toNat (Database.enter (t, n) u).1 := by
  subst hschema
  cases h with
  | keyed p row? =>
    obtain ⟨d, hd, hkey⟩ := Tuple.exists_primaryKey hin.key
    have hadd : (keyed p row?).add u.values = keyed p (Function.update row? d (some u.values)) := by
      rw [add, hd]
    rw [Database.enter, hkey, hadd]
    exact ⟨rfl, KeyedIn.enter hin hu hd⟩
  | listed rows =>
    have hkey : u.primaryKey? = none := by
      rw [Tuple.primaryKey?, hin.key]
      rfl
    have hnext : (n + 1).toNat = n.toNat + 1 := by
      rw [UInt64.toNat_add]
      exact Nat.mod_eq_of_lt hbound
    rw [Database.enter, hkey]
    dsimp only
    rw [hnext]
    exact ⟨rfl, ListedIn.enter hin hu n.toNat_lt⟩

/-- Entering tuples one after the other does to the table what adding their rows does to what is
held, as long as there are numbers. -/
theorem In.foldl_enter {tuples : List Tuple} {n : UInt64} (hin : h.In r n.toNat t)
    (htuples : ∀ u ∈ tuples, r.Takes u.values ∧ u.schema = r)
    (hbound : n.toNat + h.numbersFor tuples.length < 2 ^ 64) :
    (tuples.foldl Database.enter (t, n)).2.toNat = n.toNat + h.numbersFor tuples.length
      ∧ ((tuples.map (·.values)).foldl add h).In r (tuples.foldl Database.enter (t, n)).2.toNat
        (tuples.foldl Database.enter (t, n)).1 := by
  induction tuples generalizing h t n with
  | nil =>
    have hzero : h.numbersFor 0 = 0 := by cases h <;> rfl
    rw [List.length_nil, hzero]
    exact ⟨rfl, hin⟩
  | cons u tuples ih =>
    obtain ⟨⟨hu, hschema⟩, hrest⟩ := List.forall_mem_cons.1 htuples
    rw [List.length_cons, numbersFor_succ] at hbound
    obtain ⟨hcount, hentered⟩ := hin.enter hu hschema (by omega)
    rw [List.length_cons, numbersFor_succ, List.foldl_cons, List.map_cons, List.foldl_cons]
    generalize Database.enter (t, n) u = entered at hcount hentered
    obtain ⟨t', n'⟩ := entered
    dsimp only at hcount hentered
    have hnumbers := h.numbersFor_add u.values tuples.length
    obtain ⟨hcount', hin'⟩ := ih hentered hrest (by rw [hnumbers, hcount]; omega)
    rw [hnumbers, hcount] at hcount'
    exact ⟨by omega, hin'⟩

/-! ### Reading tables -/

theorem exists_map_eq {α β : Type} {f : β → α} {P : β → Prop} {as : List α}
    (h : ∀ a ∈ as, ∃ b, P b ∧ a = f b) : ∃ bs : List β, as = bs.map f ∧ ∀ b ∈ bs, P b := by
  induction as with
  | nil => exact ⟨[], rfl, by simp⟩
  | cons a as ih =>
    obtain ⟨⟨b, hb, rfl⟩, has⟩ := List.forall_mem_cons.1 h
    obtain ⟨bs, rfl, hbs⟩ := ih has
    exact ⟨b :: bs, rfl, List.forall_mem_cons.2 ⟨hb, hbs⟩⟩

/-- The rows that are read from the table are all that is held, in order. -/
theorem In.shows (hin : h.In r next t) :
    h.Shows ((t.entries.filterMap fun e => (Tuple.decode r e.2).toOption).map (·.values)) := by
  cases h with
  | listed rows => exact Schema.Takes.values_of_records hin.takes hin.records
  | keyed p row? =>
    have hin : KeyedIn r p row? t := hin
    obtain ⟨entries, hentries, hrows⟩ := exists_map_eq hin.only
    refine ⟨entries, ?_, fun d row => ⟨hrows (d, row), fun hrow => ?_⟩, ?_⟩
    · refine Schema.Takes.values_of_records (fun row hrow => ?_) ?_
      · obtain ⟨q, hq, rfl⟩ := List.mem_map.1 hrow
        exact (hin.stored _ _ (hrows q hq)).1
      · rw [hentries, List.map_map, List.map_map]
        rfl
    · obtain ⟨htakes, hd, hmem⟩ := hin.stored d row hrow
      rw [hentries] at hmem
      obtain ⟨⟨d', row'⟩, hq, heq⟩ := List.mem_map.1 hmem
      obtain ⟨htakes', hd', -⟩ := hin.stored d' row' (hrows _ hq)
      obtain rfl := htakes'.eq_of_encode_eq htakes hd' hd (congrArg Prod.fst heq)
      have hrow' : row? d' = some row' := hrows _ hq
      rw [hrow] at hrow'
      cases hrow'
      exact hq
    · have hsorted := t.sorted
      rw [hentries, List.pairwise_map] at hsorted
      exact hsorted

end Holdings

end RelQuery
