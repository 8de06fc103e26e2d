/-
  Scans as sources: a cursor on the table of a partition never fails, and a scan hands out the
  rows of the entries ahead of its cursor that satisfy the filter.

  Pages have no part in this: a cursor that stands in a copy of a page has the same entries ahead
  as one that stands in the table.
-/
import RelQuery.Proofs.Operator.Hands
import RelQuery.Proofs.Store

namespace RelQuery

namespace Store

open Cursor (ahead_congr ahead_of_settle ahead_behind)

theorem isReachable_of_openTable {s : Store} {partition : String} {id : TableId}
    (h : s.openTable partition = .ok id) : s.isReachable id = true := by
  unfold openTable tableId? SortedMap.find? at h
  cases he : s.partitions.entries.find? (fun e => compare e.1 partition = .eq) with
  | none => rw [he] at h; cases h
  | some e =>
    rw [he] at h
    cases h
    exact List.any_eq_true.2 ⟨e, List.mem_of_find?_eq_some he, by simp⟩

/-- Settling moves a cursor neither to another table nor to other entries. -/
theorem Cursor.settle_eq_ok {c : Cursor} {s : Store} (h : s.isReachable c.table = true) :
    ∃ d layout, c.settle s = .ok (d, layout) ∧ d.ahead s = c.ahead s ∧ d.table = c.table
      ∧ d.partition = c.partition := by
  cases hs : c.settle s with
  | error e =>
    unfold settle at hs
    split at hs
    · rw [if_pos h] at hs; cases hs
    · cases hs
  | ok found =>
    obtain ⟨d, layout⟩ := found
    refine ⟨d, layout, rfl, ahead_of_settle hs, ?_⟩
    unfold settle at hs
    split at hs
    · rw [if_pos h] at hs
      cases hs
      unfold copied
      split <;> exact ⟨rfl, rfl⟩
    · cases hs
      exact ⟨rfl, rfl⟩

/-- A cursor on a table that a partition leads to gives the first entry ahead, if there is
one. -/
theorem Cursor.next_eq_ok {c : Cursor} {s : Store} (h : s.isReachable c.table = true) :
    ∃ d layout, c.next s = (.ok (c.ahead s).head?, d, layout) ∧ d.ahead s = (c.ahead s).tail
      ∧ d.table = c.table ∧ d.partition = c.partition := by
  obtain ⟨d, layout, hs, ha, ht, hp⟩ := settle_eq_ok h
  unfold next
  rw [hs]
  simp only [ha]
  cases hahead : c.ahead s with
  | nil => exact ⟨d, layout, rfl, by rw [ha, hahead]; rfl, ht, hp⟩
  | cons e es =>
    have hb : (d.behind e.1).ahead s = es := ahead_behind (ha.trans hahead)
    refine ⟨d.behind e.1, layout, rfl, hb, ?_⟩
    unfold behind
    split <;> exact ⟨ht, hp⟩

/-- So does one on a table that was opened, whatever the layout. -/
theorem Cursor.next_of_openTable {c : Cursor} {s : Store} {partition : String}
    (h : s.openTable partition = .ok c.table) (l : Layout) :
    ∃ d m, c.next { s with layout := l } = (.ok (c.ahead s).head?, d, m)
      ∧ d.ahead s = (c.ahead s).tail ∧ d.table = c.table ∧ d.partition = c.partition := by
  have hlayout : ∀ c : Cursor, c.ahead { s with layout := l } = c.ahead s := ahead_congr rfl
  obtain ⟨d, m, hn, ha, hsame⟩ := next_eq_ok (c := c) (s := { s with layout := l })
    (isReachable_of_openTable h)
  rw [hlayout] at hn
  rw [hlayout, hlayout] at ha
  exact ⟨d, m, hn, ha, hsame⟩

end Store

namespace Source

open Store (Layout Cursor)

/-- The rows that a scan makes of entries. -/
def rowsOf (r : Schema) (filter : List Predicate) (entries : List (Bytes × Bytes)) : List Row :=
  ((entries.filterMap fun e => (Tuple.decode r e.2).toOption).map Row.base).filter
    fun row => filter.all (·.joins row row)

theorem rows_scan {s : Store} {r : Schema} {t : Table} (h : s.contents r.name = .ok t)
    (filter : List Predicate) : (Plan.scan r filter).rows s = rowsOf r filter t.entries := by
  rw [Plan.rows, Store.tuples, h]; rfl

/-- The filter of a scan has an answer on the tuples of its relation. -/
def Filters (r : Schema) (filter : List Predicate) : Prop :=
  ∀ p ∈ filter, p.left.ReadsFrom [r] ∧ p.right.ReadsFrom [r]

theorem satisfies_eq_ok {r : Schema} {filter : List Predicate} (h : Filters r filter) {row : Row}
    (hrow : row.Of [r]) : satisfies row filter = .ok (filter.all (·.joins row row)) := by
  induction filter with
  | nil => rfl
  | cons p ps ih =>
    obtain ⟨⟨hl, hr⟩, h⟩ := List.forall_mem_cons.1 h
    obtain ⟨a, ha⟩ := Term.exists_value hl hrow (by simp)
    obtain ⟨b, hb⟩ := Term.exists_value hr hrow (by simp)
    have hp : p.holds row = .ok (p.joins row row) := by
      unfold Predicate.holds Predicate.holdsBetween Predicate.joins
      rw [ha, hb, Term.read_of_value ha, Term.read_of_value hb]
      simp [bind, Except.bind, pure, Except.pure]
    rw [satisfies, hp, List.all_cons]
    cases p.joins row row with
    | true => simpa using ih h
    | false => rfl

/-- A cursor on the table of a relation, all of whose entries ahead decode. -/
structure CursorGood (s : Store) (r : Schema) (c : Cursor) : Prop where
  partition : c.partition = r.name
  table : s.openTable r.name = .ok c.table
  decodes : ∀ e ∈ c.ahead s, ∃ t, Tuple.decode r e.2 = .ok t

/-- The cursor gives the first entry ahead and keeps good. -/
theorem CursorGood.next {s : Store} {r : Schema} {c : Cursor} (hc : CursorGood s r c)
    (l : Layout) :
    ∃ d m, c.next { s with layout := l } = (.ok (c.ahead s).head?, d, m) ∧ CursorGood s r d
      ∧ d.ahead s = (c.ahead s).tail := by
  obtain ⟨d, m, hn, ha, ht, hp⟩ := Cursor.next_of_openTable hc.table l
  refine ⟨d, m, hn, ⟨hp ▸ hc.partition, ht ▸ hc.table, fun e he => hc.decodes e ?_⟩, ha⟩
  rw [ha] at he
  exact List.mem_of_mem_tail he

theorem rowsOf_cons {r : Schema} {filter : List Predicate} {e : Bytes × Bytes} {t : Tuple}
    (h : Tuple.decode r e.2 = .ok t) (entries : List (Bytes × Bytes)) :
    rowsOf r filter (e :: entries)
      = (if filter.all (fun p => p.joins (.base t) (.base t)) then [.base t] else [])
        ++ rowsOf r filter entries := by
  unfold rowsOf
  rw [List.filterMap_cons_some (b := t) (by rw [h]; rfl), List.map_cons, List.filter_cons]
  split <;> simp_all

theorem firstMatch_of_next {s : Store} {r : Schema} {filter : List Predicate} {c d : Cursor}
    {l m : Layout} {answer : Except Error (Option (Bytes × Bytes))}
    (h : c.next { s with layout := l } = (answer, d, m)) :
    Source.firstMatch s r filter c l = (searchRound (matchVerdict r filter) (answer, d, m)).finish
      fun u => Source.firstMatch s r filter u.1 u.2 :=
  h ▸ (matching s r filter).run_eq (c, l)

/-- What the reads of entries keep, a search for a match keeps. -/
theorem firstMatch_keeps {s : Store} {r : Schema} {filter : List Predicate} {P : Cursor → Prop}
    (hnext : ∀ {c l answer d m}, P c → c.next { s with layout := l } = (answer, d, m) → P d)
    {c d : Cursor} {l m : Layout} {answer : Except Error (Option Row)} (hc : P c)
    (h : Source.firstMatch s r filter c l = (answer, d, m)) : P d :=
  Loop.run_leads h (fun u => P u.1) (fun a => P a.2.1) hc fun _ hu =>
    searchRound_leads (fun _ _ _ hn => hnext hu hn) (fun _ _ hn => hnext hu hn)
      (fun _ _ _ _ hn _ => hnext hu hn) fun _ _ _ hn _ => hnext hu hn

theorem next_scan {s : Store} {r : Schema} {filter : List Predicate} {c d : Cursor}
    {l m : Layout} {answer : Except Error (Option Row)}
    (h : Source.firstMatch s r filter c l = (answer, d, m)) :
    (Source.scan s r filter).next (some c) l = (answer, some d, m) := by
  simp only [Source.scan, scanNext, h]
  rfl

/-- A scan that is open looks for a match, and stays open. -/
theorem exists_of_next_scan {s : Store} {r : Schema} {filter : List Predicate} {c : Cursor}
    {t : Option Cursor} {l m : Layout} {answer : Except Error (Option Row)}
    (h : (Source.scan s r filter).next (some c) l = (answer, t, m)) :
    ∃ d, t = some d ∧ Source.firstMatch s r filter c l = (answer, d, m) := by
  generalize hm : Source.firstMatch s r filter c l = found
  obtain ⟨answer, d, k⟩ := found
  cases (next_scan hm).symm.trans h
  exact ⟨d, rfl, rfl⟩

/-- A scan goes on to the first entry ahead whose row satisfies the filter. -/
theorem CursorGood.firstMatch {s : Store} {r : Schema} {filter : List Predicate}
    (hf : Filters r filter) {c : Cursor} (l : Layout) (hc : CursorGood s r c) :
    ∃ d m, Source.firstMatch s r filter c l
        = (.ok (rowsOf r filter (c.ahead s)).head?, d, m)
      ∧ CursorGood s r d ∧ rowsOf r filter (d.ahead s) = (rowsOf r filter (c.ahead s)).tail := by
  generalize hrows : c.ahead s = entries
  induction entries generalizing c l with
  | nil =>
    obtain ⟨d, m, hn, hd, ha⟩ := hc.next l
    rw [hrows] at hn ha
    refine ⟨d, m, ?_, hd, by rw [ha]; rfl⟩
    rw [firstMatch_of_next hn]
    rfl
  | cons e entries ih =>
    obtain ⟨d, m, hn, hd, ha⟩ := hc.next l
    obtain ⟨t, ht⟩ := hc.decodes e (hrows ▸ List.mem_cons_self)
    rw [hrows] at hn ha
    have hsat := satisfies_eq_ok hf (Row.base_of (Tuple.schema_of_decode ht))
    have hstep : Source.firstMatch s r filter c l
        = if filter.all (fun p => p.joins (.base t) (.base t)) then (.ok (some (.base t)), d, m)
          else Source.firstMatch s r filter d m := by
      rw [firstMatch_of_next hn]
      dsimp only [List.head?_cons, searchRound, matchVerdict]
      rw [ht]
      dsimp only
      rw [hsat]
      cases filter.all fun p => p.joins (.base t) (.base t) <;> rfl
    rw [hstep, rowsOf_cons ht]
    split
    · exact ⟨d, m, rfl, hd, by rw [ha]; rfl⟩
    · exact ih m hd ha

/-- A scan that is open, on the table of its relation. -/
def ScanGood (s : Store) (r : Schema) (c : Option Cursor) : Prop :=
  ∃ d, c = some d ∧ CursorGood s r d

theorem Hands.scan {s : Store} {r : Schema} {filter : List Predicate} (hf : Filters r filter) :
    (Source.scan s r filter).Hands (ScanGood s r) (fun c => rowsOf r filter (entriesAhead s c))
      (Row.Of [r]) where
  next := by
    rintro _ l ⟨c, rfl, hc⟩
    obtain ⟨d, m, hm, hd, ha⟩ := hc.firstMatch hf l
    exact ⟨some d, m, next_scan hm, ⟨d, rfl, hd⟩, ha⟩
  fits := by
    rintro _ row ⟨c, rfl, hc⟩ hmem
    obtain ⟨hmem, -⟩ := List.mem_filter.1 hmem
    obtain ⟨t, ht, rfl⟩ := List.mem_map.1 hmem
    obtain ⟨e, he, hdec⟩ := List.mem_filterMap.1 ht
    obtain ⟨u, hu⟩ := hc.decodes e he
    rw [hu] at hdec
    cases hdec
    exact Row.base_of (Tuple.schema_of_decode hu)

/-- A cursor at the start of a relation whose records decode. -/
theorem CursorGood.start {s : Store} {r : Schema} {id : TableId} (h : s.Serves r)
    (ho : s.openTable r.name = .ok id) : CursorGood s r (.start r.name id) := by
  obtain ⟨t, ht, hdec⟩ := h
  have hid := Store.contents_eq_ok_iff_openTable.2 ⟨id, ho, rfl⟩
  rw [ht] at hid
  cases hid
  exact ⟨rfl, ho, hdec⟩

theorem Restarts.scan {s : Store} {r : Schema} {filter : List Predicate} (h : s.Serves r) :
    (Source.scan s r filter).Restarts (ScanGood s r)
      (fun c => rowsOf r filter (entriesAhead s c)) ((Plan.scan r filter).rows s) := by
  rintro _ ⟨c, rfl, hc⟩
  refine ⟨some c.restart, rfl, ⟨_, rfl, ?_⟩, ?_⟩
  · rw [Cursor.restart, hc.partition]
    exact CursorGood.start h hc.table
  · rw [rows_scan (Store.contents_eq_ok_iff_openTable.2 ⟨c.table, hc.table, rfl⟩)]
    rfl

end Source

end RelQuery
