/-
  Runs that have come to their end stay there: once a call for a row gave none, later ones give none
  either, until the run is opened, restarted or released.

  The end is remembered in three ways. A nested loop has a flag. A hash join has a flag as well, but
  looks at the pairs that wait first, so there must be none of them. A scan has its cursor only: in
  a durable store that stands behind the copy of the last page and asks the store for nothing more,
  in memory it stands behind the last key that it gave, and so a scan in memory goes on when entries
  are put behind that key. A join does not, as it no longer asks its inputs.

  Main statement: `Operator.replies_ended`.
-/
import RelQuery.Proofs.Operator.Anew
import RelQuery.Proofs.Store.Cursor

namespace RelQuery

open Store (Layout Cursor)

/-! ## Cursors at their end -/

namespace Store.Cursor

variable {c d : Cursor} {s s' : Store} {m : Layout}

/-- Keys behind the last one that the cursor gave, all of them if it gave none. A cursor that stands
in a copy is not moved by keys. -/
def Beyond (c : Cursor) (key : Bytes) : Prop :=
  ∃ last, c.place = .after last ∧ ∀ k ∈ last, compare k key = .lt

/-- A cursor that has nothing ahead, and need not look for a further page to say so. -/
structure Ended (c : Cursor) (s : Store) : Prop where
  settled : s.engine = .volatile ∨ c.pageKey? = none
  ahead : c.ahead s = []

theorem settle_of_settled (h : s.engine = .volatile ∨ c.pageKey? = none) :
    c.settle s = .ok (c, s.layout) := by
  unfold settle
  rcases h with h | h
  · rw [h]
  · rw [h]
    cases s.engine <;> rfl

theorem Ended.next (h : c.Ended s) : c.next s = (.ok none, c, s.layout) := by
  unfold Cursor.next
  rw [settle_of_settled h.settled]
  dsimp only
  rw [h.ahead]

/-- Where a page would have to be copied there is none left, and the cursor remembers that. -/
theorem ended_of_next (h : c.next s = (.ok none, d, m)) : d.Ended s := by
  unfold Cursor.next at h
  split at h
  · cases h
  · rename_i d' layout hsettle
    split at h
    · rename_i hahead
      cases h
      refine ⟨?_, hahead⟩
      rw [ahead_of_settle hsettle] at hahead
      unfold settle at hsettle
      split at hsettle
      · rename_i key _ _
        split at hsettle
        · cases hsettle
          have hvisited : c.ahead (s.visitFrom c.table key ((c.ahead s).head?.map (·.1))) = [] :=
            (ahead_congr (tables_visitFrom ..) c).trans hahead
          unfold copied
          rw [hvisited]
          exact .inr rfl
        · cases hsettle
      · rename_i hno
        cases hsettle
        cases hengine : s.engine with
        | volatile => exact .inl rfl
        | durable => exact .inr (Option.eq_none_iff_forall_ne_some.2 fun key => hno key hengine)
    · cases h

/-- A cursor at its end stays there as long as no keys come beyond it. -/
theorem Ended.later (h : c.Ended s) (hengine : s'.engine = s.engine)
    (hplace : s.engine = .volatile → ∃ last, c.place = .after last)
    (hkeys : ∀ key ∈ (s'.table c.table).keys, ¬ c.Beyond key) : c.Ended s' := by
  rcases h.settled with hvolatile | hcopied
  · obtain ⟨last, hlast⟩ := hplace hvolatile
    refine ⟨.inl (hengine.trans hvolatile), ?_⟩
    unfold Cursor.ahead
    rw [hlast]
    refine List.eq_nil_iff_forall_not_mem.2 fun e he => ?_
    obtain ⟨hmem, hbehind⟩ := Walk.mem_after_iff.1 he
    exact hkeys e.1 (List.mem_map_of_mem hmem) ⟨last, hlast, hbehind⟩
  · have hahead := h.ahead
    obtain ⟨partition, table, place⟩ := c
    cases place with
    | after last => cases hcopied
    | before entries border =>
      cases entries with
      | cons e entries => cases border <;> cases hahead
      | nil =>
        -- Behind the copy of the last page nothing is asked of the table any more.
        cases border with
        | some border => cases hcopied
        | none => exact ⟨.inr rfl, rfl⟩

/-- In memory a cursor that stands in the table goes on in the table. -/
theorem place_of_next {answer : Except Error (Option (Bytes × Bytes))}
    (h : c.next s = (answer, d, m)) (hvolatile : s.engine = .volatile)
    (hplace : ∃ last, c.place = .after last) : ∃ last, d.place = .after last := by
  obtain ⟨last, hlast⟩ := hplace
  rw [next_of_volatile hvolatile] at h
  cases hahead : (c.ahead s).head? with
  | none =>
    rw [hahead] at h
    cases h
    exact ⟨last, hlast⟩
  | some e =>
    rw [hahead] at h
    cases h
    refine ⟨some e.1, ?_⟩
    show (c.behind e.1).place = _
    unfold behind
    rw [hlast]

end Store.Cursor

/-! ## Sources at their end -/

namespace Source

variable {σ τ : Type} {L : Source σ} {R : Source τ} {on : Predicate} {l m : Layout}

theorem ended_of_firstMatch {store : Store} {r : Schema} {filter : List Predicate} {c d : Cursor}
    (h : firstMatch store r filter c l = (.ok none, d, m)) : d.Ended store := by
  refine Loop.run_leads h (fun _ => True) (fun a => a.1 = .ok none → a.2.1.Ended store) trivial
    (fun s _ => ?_) rfl
  refine searchRound_leads (fun _ _ _ _ => nofun) ?last ?found fun _ _ _ _ _ => trivial
  case last =>
    intro d l hn _
    exact ⟨(Cursor.ended_of_next hn).settled, (Cursor.ended_of_next hn).ahead⟩
  case found => rintro e d l (_ | row) _ _ ⟨⟩

theorem place_of_firstMatch {store : Store} {r : Schema} {filter : List Predicate} {c d : Cursor}
    {answer : Except Error (Option Row)} (hvolatile : store.engine = .volatile)
    (hplace : ∃ last, c.place = .after last) (h : firstMatch store r filter c l = (answer, d, m)) :
    ∃ last, d.place = .after last :=
  firstMatch_keeps (P := fun c => ∃ last, c.place = .after last)
    (fun hc hn => Cursor.place_of_next hn hvolatile hc) hplace h

/-- A nested loop that answers none has no left row any more. -/
def ExhaustedAtNone (a : Answer (LoopState σ τ × Layout) (Option Row)) : Prop :=
  a.1 = .ok none → a.2.1.exhausted = true

theorem heldRound_exhausted {left : σ} {row : Row} {answer : Except Error (Option Row)} {t : τ} :
    (heldRound left row (answer, t, l)).Leads (fun _ => True) ExhaustedAtNone :=
  heldRound_leads (fun _ _ => nofun) (fun _ _ => nofun) fun _ => trivial

theorem exhausted_of_pull {s : σ} {t : τ} {u : LoopState σ τ}
    (h : Source.pull L R on s t l = (.ok none, u, m)) : u.exhausted = true := by
  refine Loop.run_leads h (fun _ => True) ExhaustedAtNone trivial (fun v _ => ?_) rfl
  exact pullRound_leads (fun _ _ _ _ => nofun) (fun _ _ _ _ => rfl)
    fun _ _ _ _ _ _ _ _ => heldRound_exhausted

theorem exhausted_of_nextJoined {s u : LoopState σ τ}
    (h : nextJoined L R on s l = (.ok none, u, m)) : u.exhausted = true := by
  have hpull {s : σ} {t : τ} {l : Layout} : ExhaustedAtNone (Source.pull L R on s t l) :=
    fun hnone => exhausted_of_pull (Prod.ext hnone rfl)
  refine nextJoined_leads h ExhaustedAtNone (fun hexhausted _ => hexhausted) (fun _ => hpull) ?_ rfl
  exact fun _ _ _ _ _ _ => heldRound_exhausted.mono (fun _ _ => hpull) fun _ ha => ha

/-- A pair that waits is given or fails, so there is none left at the end. -/
theorem exhausted_of_nextPaired {s u : HashState σ τ}
    (h : nextPaired L on s l = (.ok none, u, m)) : u.pending = [] ∧ u.exhausted = true := by
  refine Loop.run_leads h (fun _ => True)
    (fun a => a.1 = .ok none → a.2.1.pending = [] ∧ a.2.1.exhausted = true) trivial
    (fun v _ => ?_) rfl
  refine pairRound_leads ?pending ?exhausted (fun _ _ _ _ _ _ => nofun) ?last
    fun _ _ _ _ _ _ _ => trivial
  case pending =>
    intro row r pending _ hanswer
    dsimp only at hanswer
    cases hc : row.combine r <;> rw [hc] at hanswer <;> cases hanswer
  case exhausted => exact fun hpending hexhausted _ => ⟨hpending, hexhausted⟩
  case last => exact fun _ _ hpending _ _ => ⟨hpending, rfl⟩

end Source

/-! ## Runs at their end -/

namespace Operator

variable {op : Operator} {store store' : Store} {s t : op.State} {l m : Layout}

/-- What is below the projections is a join. -/
def joins : Operator → Bool
  | scan _ _ => false
  | nestedLoop _ _ _ | hash _ _ _ => true
  | project _ input => input.joins

/-- How a run remembers that it has come to its end. -/
def Ended (store : Store) : (op : Operator) → op.State → Prop
  | scan _ _, c => ∃ d : Cursor, c = some d ∧ d.Ended store
  | nestedLoop _ _ _, s => s.exhausted = true
  | hash _ _ _, s => s.pending = [] ∧ s.exhausted = true
  | project _ input, s => input.Ended store s

/-- At the end there are no rows, and a call for one changes nothing. -/
theorem Ended.next (h : op.Ended store s) (l : Layout) :
    (op.source store).next s l = (.ok none, s, l) := by
  induction op with
  | scan r filter =>
    obtain ⟨d, rfl, hd⟩ := h
    have hnext : d.next { store with layout := l } = (.ok none, d, l) :=
      Cursor.Ended.next ⟨hd.settled, hd.ahead⟩
    exact Source.next_scan (Source.firstMatch_of_next hnext)
  | nestedLoop on left right =>
    exact if_pos h
  | hash on left right => exact Source.nextPaired_of_exhausted h.1 h.2
  | project outputs input ih =>
    simp only [source, Source.project, ih h]
    rfl

/-- A run that gave none has come to its end. -/
theorem ended_of_next (h : (op.source store).next s l = (.ok none, t, m)) :
    op.Ended store t := by
  induction op generalizing l m with
  | scan r filter =>
    cases s with
    | none => cases h
    | some c =>
      obtain ⟨d, rfl, hm⟩ := Source.exists_of_next_scan h
      exact ⟨d, rfl, Source.ended_of_firstMatch hm⟩
  | nestedLoop on left right => exact Source.exhausted_of_nextJoined h
  | hash on left right => exact Source.exhausted_of_nextPaired h
  | project outputs input ih =>
    obtain ⟨_ | _ | row, hn, hanswer⟩ := Source.exists_of_next_project h
    · cases hanswer
    · exact ih hn
    · dsimp only at hanswer
      cases hv : Source.valuesOf outputs row <;> rw [hv] at hanswer <;> cases hanswer

/-- Joins do not look at the store again. -/
theorem Ended.of_joins (h : op.Ended store t) (hjoins : op.joins = true) :
    op.Ended store' t := by
  induction op with
  | scan => cases hjoins
  | nestedLoop | hash => exact h
  | project outputs input ih => exact ih h hjoins

/-! ### Scans in memory -/

/-- The cursor of a scan stands in the table and in no copy. -/
def InTable : (op : Operator) → op.State → Prop
  | scan _ _, c => ∀ d : Cursor, c = some d → ∃ last, d.place = .after last
  | nestedLoop _ _ _, _ | hash _ _ _, _ => True
  | project _ input, s => input.InTable s

theorem Ended.later (h : op.Ended store t) (hengine : store'.engine = store.engine)
    (hplace : store.engine = .volatile → op.InTable t)
    (hkeys : ∀ c ∈ op.cursors t, ∀ key ∈ (store'.table c.table).keys, ¬ c.Beyond key) :
    op.Ended store' t := by
  induction op with
  | scan r filter =>
    obtain ⟨d, rfl, hd⟩ := h
    exact ⟨d, rfl, hd.later hengine (fun hvolatile => hplace hvolatile d rfl)
      (hkeys d (Option.mem_toList.2 rfl))⟩
  | nestedLoop | hash => exact h
  | project outputs input ih => exact ih h hplace hkeys

theorem inTable_initial (op : Operator) : op.InTable op.initial := by
  induction op with
  | scan => exact nofun
  | nestedLoop | hash => trivial
  | project outputs input ih => exact ih

theorem inTable_acquire (h : op.InTable s) (l : Layout) :
    op.InTable (op.acquire store s l).2.1 := by
  induction op with
  | scan r filter =>
    rintro d hd
    rw [acquire_scan, Store.cursor] at hd
    cases hopen : store.openTable r.name with
    | error e =>
      rw [hopen] at hd
      exact h d hd
    | ok id =>
      rw [hopen] at hd
      cases hd
      exact ⟨none, rfl⟩
  | nestedLoop | hash => trivial
  | project outputs input ih => exact ih h

theorem inTable_next (hvolatile : store.engine = .volatile) (h : op.InTable s)
    {answer : Except Error (Option Row)} (hn : (op.source store).next s l = (answer, t, m)) :
    op.InTable t := by
  induction op generalizing answer with
  | scan r filter =>
    cases s with
    | none =>
      cases hn
      exact h
    | some c =>
      obtain ⟨d, rfl, hm⟩ := Source.exists_of_next_scan hn
      rintro _ ⟨⟩
      exact Source.place_of_firstMatch hvolatile (h c rfl) hm
  | nestedLoop | hash => trivial
  | project outputs input ih =>
    obtain ⟨found, hinput, -⟩ := Source.exists_of_next_project hn
    exact ih h hinput

theorem inTable_restart (h : op.InTable s) :
    op.InTable ((op.source store).restart s).2 := by
  induction op with
  | scan r filter =>
    cases s with
    | none => exact nofun
    | some c =>
      rintro _ ⟨⟩
      exact ⟨none, rfl⟩
  | nestedLoop | hash => trivial
  | project outputs input ih => exact h

theorem inTable_call (hvolatile : store.engine = .volatile) (h : op.InTable s) (c : Call) :
    op.InTable (op.call store s c).2.1 := by
  cases c with
  | acquire => exact inTable_acquire h store.layout
  | next => exact inTable_next hvolatile h rfl
  | restart => exact inTable_restart h
  | release =>
    show op.InTable (op.close s).2
    rw [close_eq_release, release_eq_initial]
    exact inTable_initial op

theorem inTable_stateAfter (history : List (Store × Call))
    (hvolatile : ∀ asked ∈ history, asked.1.engine = .volatile) (h : op.InTable s) :
    op.InTable (op.stateAfter history s) := by
  induction history generalizing s with
  | nil => exact h
  | cons asked history ih =>
    obtain ⟨hfirst, hrest⟩ := List.forall_mem_cons.1 hvolatile
    exact ih hrest (inTable_call hfirst h asked.2)

/-! ### Later calls -/

theorem replies_of_ended {later : List Store} (h : ∀ s ∈ later, op.Ended s t) :
    op.replies (later.map (·, .next)) t = later.map fun s => (.row (.ok none), s.layout) := by
  induction later with
  | nil => rfl
  | cons s later ih =>
    obtain ⟨hs, hlater⟩ := List.forall_mem_cons.1 h
    rw [List.map_cons, replies, call, hs.next s.layout]
    exact congrArg (_ :: ·) (ih hlater)

/-- Once a call gave none, later `replies` are none and leave the layout as it is. This holds on any
stores if the operator `joins`; a scan must find the engine that it had, and no key `Beyond` its
cursor. -/
theorem replies_ended {op : Operator} {history : List (Store × Call)} {store : Store}
    {t : op.State} {m : Layout}
    (hended : op.call store (op.stateAfter history op.initial) .next = (.row (.ok none), t, m))
    (later : List Store)
    (hstays : op.joins = true
      ∨ (∀ s ∈ history.map (·.1) ++ later, s.engine = store.engine)
        ∧ ∀ s ∈ later, ∀ c ∈ op.cursors t, ∀ key ∈ (s.table c.table).keys, ¬ c.Beyond key) :
    op.replies (later.map (·, .next)) t = later.map fun s => (.row (.ok none), s.layout) := by
  have hnext : (op.source store).next (op.stateAfter history op.initial) store.layout
      = (.ok none, t, m) := by
    rw [call] at hended
    generalize (op.source store).next _ _ = asked at hended
    obtain ⟨answer, u, k⟩ := asked
    cases hended
    rfl
  have hend : op.Ended store t := ended_of_next hnext
  refine replies_of_ended fun s hs => ?_
  rcases hstays with hjoins | ⟨hengine, hkeys⟩
  · exact hend.of_joins hjoins
  · refine hend.later (hengine s (List.mem_append_right _ hs)) (fun hvolatile => ?_) (hkeys s hs)
    have hbefore : op.InTable (op.stateAfter history op.initial) := by
      refine inTable_stateAfter history (fun asked hasked => ?_) (inTable_initial op)
      rw [hengine asked.1 (List.mem_append_left _ (List.mem_map_of_mem hasked)), hvolatile]
    exact inTable_next hvolatile hbefore hnext

/-- The scan of a relation that holds one number. -/
def oneNumber : Operator := .scan (.numbers "a") []

/-- It gives the number and then none, and the cursor stands behind the one key. -/
theorem call_oneNumber :
    oneNumber.call sevens (oneNumber.stateAfter [(sevens, .acquire), (sevens, .next)]
        oneNumber.initial) .next
      = (.row (.ok none), some ⟨"a", 0, .after (some [0])⟩, .empty) := by
  have hfirst : Cursor.next (.start "a" 0) { sevens with layout := .empty }
      = (.ok (some ([0], Datum.encode (.int 7))), ⟨"a", 0, .after (some [0])⟩, .empty) := by decide
  have hsecond : Cursor.next ⟨"a", 0, .after (some [0])⟩ { sevens with layout := .empty }
      = (.ok none, ⟨"a", 0, .after (some [0])⟩, .empty) := by decide
  have hstate : oneNumber.stateAfter [(sevens, .acquire), (sevens, .next)] oneNumber.initial
      = some ⟨"a", 0, .after (some [0])⟩ := by
    have hone : (Source.scan sevens (.numbers "a") []).next (some (.start "a" 0)) .empty
        = (.ok (some _), some ⟨"a", 0, .after (some [0])⟩, .empty) :=
      Source.next_scan (Source.firstMatch_of_next hfirst)
    exact congrArg (·.2.1) hone
  have hnone : (Source.scan sevens (.numbers "a") []).next (some ⟨"a", 0, .after (some [0])⟩) .empty
      = (.ok none, some ⟨"a", 0, .after (some [0])⟩, .empty) :=
    Source.next_scan (Source.firstMatch_of_next hsecond)
  rw [hstate]
  exact congrArg (fun a => (Reply.row a.1, a.2.1, a.2.2)) hnone

/-- A join gives none even after a new row would join, and after everything was taken away. A scan
gives none when an entry is put in front of its cursor. -/
theorem replies_ended_sevens :
    (∃ t m, sharedNumbers.call sevens (sharedNumbers.stateAfter
          [(sevens, .acquire), (sevens, .next)] sharedNumbers.initial) .next
        = (.row (.ok none), t, m)
      ∧ sharedNumbers.joins = true
      ∧ sharedNumbers.replies
          [(sevens.write 0 [9] (Datum.encode (.int 8)), .next), (.volatile, .next)] t
        = [(.row (.ok none), .empty), (.row (.ok none), .empty)])
      ∧ oneNumber.joins = false
      ∧ oneNumber.replies [(sevens.write 0 [] (Datum.encode (.int 8)), .next)]
          (some ⟨"a", 0, .after (some [0])⟩)
        = [(.row (.ok none), .empty)] := by
  constructor
  · have hands := hands_of_joinable joinable_sharedNumbers served_sharedNumbers
    obtain ⟨first, m, hopened, hready, hahead⟩ :=
      acquire_of_joinable joinable_sharedNumbers served_sharedNumbers sevens.layout
    obtain ⟨s, k, hnext, hready, hrest⟩ := hands.next sevens.layout hready
    obtain ⟨t, i, hend, -⟩ := hands.next sevens.layout hready
    rw [hrest, hahead] at hend
    have hstate : sharedNumbers.stateAfter [(sevens, .acquire), (sevens, .next)]
        sharedNumbers.initial = s := by
      simp only [stateAfter, List.foldl_cons, List.foldl_nil, call, hopened, hnext]
    have hended : sharedNumbers.call sevens (sharedNumbers.stateAfter
        [(sevens, .acquire), (sevens, .next)] sharedNumbers.initial) .next
          = (.row (.ok none), t, i) := by
      rw [hstate, call, hend]
      rfl
    exact ⟨t, i, hended, rfl, replies_ended hended
      [sevens.write 0 [9] (Datum.encode (.int 8)), .volatile] (.inl rfl)⟩
  · refine ⟨rfl, replies_ended call_oneNumber [sevens.write 0 [] (Datum.encode (.int 8))]
      (.inr ⟨?_, ?_⟩)⟩
    · decide
    · intro s hs c hc key hkey
      obtain rfl := List.mem_singleton.1 hs
      have hc : c ∈ [(⟨"a", 0, .after (some [0])⟩ : Cursor)] := hc
      obtain rfl := List.mem_singleton.1 hc
      rintro ⟨last, hlast, hbehind⟩
      cases hlast
      have hnot : ∀ key ∈ ((sevens.write 0 [] (Datum.encode (.int 8))).table 0).keys,
          compare [0] key ≠ .lt := by decide
      exact hnot key hkey (hbehind [0] rfl)

end Operator

end RelQuery
