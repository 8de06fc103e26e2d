/-
  Cursors of a store in memory, read while anything else is done to the store.

  A cursor keeps no copy of its table, only the key it returned last, and goes on behind that key in
  whatever the table has become. So what it says about the table is told by that key alone
  (`Walk.Read`): the keys it has given are up to there and ascending, and a key that was in the
  table all the time was given or lies ahead. Deleting the very key it stands on, overwriting, and
  entering keys on either side of it leave this as it is.

  Once the name of a cursor's table is removed, what is done under names, to a new partition of the
  same name as well, has no part in what the cursor gives (`Walk.Parallel`).

  Main statement: `Store.Walk.gives_table`.
-/
import RelQuery.Proofs.Store.Event

namespace RelQuery

namespace Store

variable {s : Store} {id : TableId} {p : String}

/-! ## Cursors in memory -/

namespace Cursor

variable {c : Cursor}

/-- In memory a cursor gives the first entry ahead and remembers its key. -/
theorem next_of_volatile (h : s.engine = .volatile) (c : Cursor) :
    c.next s
      = (.ok (c.ahead s).head?, (c.ahead s).head?.elim c fun e => c.behind e.1, s.layout) := by
  have hsettle : c.settle s = .ok (c, s.layout) := by
    unfold settle
    rw [h]
  unfold next
  rw [hsettle]
  dsimp only
  cases c.ahead s <;> rfl

theorem ahead_congr_table {s' : Store} (h : s'.table c.table = s.table c.table) :
    c.ahead s' = c.ahead s := by
  unfold ahead
  rw [h]

@[simp] theorem table_behind (c : Cursor) (key : Bytes) : (c.behind key).table = c.table := by
  unfold behind
  split <;> rfl

end Cursor

/-! ## Walks -/

/-- A store and a cursor of it. -/
structure Walk where
  store : Store
  cursor : Cursor

namespace Walk

/-- The cursor is asked for its next entry, or something else is done to the store. -/
inductive Step where
  | next
  | event (e : Event)
  deriving DecidableEq

/-- What the cursor answers to a call. -/
def answer (w : Walk) : Except Error (Option (Bytes × Bytes)) := (w.cursor.next w.store).1

def step (w : Walk) : Step → Walk
  | .next => ⟨{ w.store with layout := (w.cursor.next w.store).2.2 }, (w.cursor.next w.store).2.1⟩
  | .event e => ⟨w.store.happen e, w.cursor⟩

def after (w : Walk) (steps : List Step) : Walk := steps.foldl step w

/-- The entry that a step gives. -/
def given? (w : Walk) : Step → Option (Bytes × Bytes)
  | .next => w.answer.toOption.join
  | .event _ => none

/-- The entries that the cursor gives, in order. -/
def given (w : Walk) : List Step → List (Bytes × Bytes)
  | [] => []
  | x :: steps => (w.given? x).toList ++ (w.step x).given steps

/-- The step is a call of the cursor, or writes to the table through an opened partition. -/
def Step.concerns (id : TableId) : Step → Bool
  | .next => true
  | .event (.put id' _ _) | .event (.erase id' _) => id' = id
  | .event _ => false

variable {w w' : Walk}

theorem after_concat (w : Walk) (steps : List Step) (x : Step) :
    w.after (steps ++ [x]) = (w.after steps).step x := by
  rw [after, List.foldl_append]
  rfl

theorem given_concat (w : Walk) (steps : List Step) (x : Step) :
    w.given (steps ++ [x]) = w.given steps ++ ((w.after steps).given? x).toList := by
  induction steps generalizing w with
  | nil => exact List.append_nil _
  | cons y steps ih =>
    rw [List.cons_append, given, given, ih, List.append_assoc]
    rfl

/-- In memory the cursor always answers, with the first entry ahead. -/
theorem answer_of_volatile (h : w.store.engine = .volatile) :
    w.answer = .ok (w.cursor.ahead w.store).head? := by
  rw [answer, Cursor.next_of_volatile h]

theorem step_next_of_volatile (h : w.store.engine = .volatile) :
    w.step .next = ⟨w.store,
      (w.cursor.ahead w.store).head?.elim w.cursor fun e => w.cursor.behind e.1⟩ := by
  rw [step, Cursor.next_of_volatile h]

theorem given?_next_of_volatile (h : w.store.engine = .volatile) :
    w.given? .next = (w.cursor.ahead w.store).head? := by
  rw [given?, answer_of_volatile h]
  rfl

/-! ### What was read -/

/-- The cursor stands behind the last key of the entries that it gave, which are ascending; each of
the lasting keys was given or lies ahead. -/
structure Read (id : TableId) (lasting : Bytes → Prop) (seen : List (Bytes × Bytes))
    (last : Option Bytes) (w : Walk) : Prop where
  volatile : w.store.engine = .volatile
  table : w.cursor.table = id
  place : w.cursor.place = .after last
  ascending : (seen.map (·.1)).Pairwise fun a b => compare a b = .lt
  upTo : ∀ key ∈ seen.map (·.1), ∃ k ∈ last, compare key k ≠ .gt
  complete : ∀ key, lasting key → key ∈ seen.map (·.1) ∨ ∀ k ∈ last, compare k key = .lt

variable {lasting lasting' : Bytes → Prop} {seen : List (Bytes × Bytes)} {last : Option Bytes}

theorem mem_after_iff {t : Table} {e : Bytes × Bytes} :
    e ∈ t.after last ↔ e ∈ t.entries ∧ ∀ k ∈ last, compare k e.1 = .lt := by
  cases last with
  | none => simp [SortedMap.after]
  | some k => simp [SortedMap.after]

theorem Read.ahead_eq (h : w.Read id lasting seen last) :
    w.cursor.ahead w.store = (w.store.table id).after last := by
  unfold Cursor.ahead
  rw [h.place, h.table]

theorem Read.mono (h : w.Read id lasting seen last) (hsub : ∀ key, lasting' key → lasting key) :
    w.Read id lasting' seen last :=
  ⟨h.volatile, h.table, h.place, h.ascending, h.upTo,
    fun key hkey => h.complete key (hsub key hkey)⟩

theorem Read.event (h : w.Read id lasting seen last) (e : Event) :
    (w.step (.event e)).Read id lasting seen last :=
  ⟨(engine_happen w.store e).trans h.volatile, h.table, h.place, h.ascending, h.upTo, h.complete⟩

/-- A call gives the first entry behind the last key: no lasting key is passed over. -/
theorem Read.next (h : w.Read id lasting seen last)
    (hlasting : ∀ key, lasting key → key ∈ (w.store.table id).keys) :
    ∃ last', (w.step .next).Read id lasting (seen ++ (w.given? .next).toList) last' := by
  rw [step_next_of_volatile h.volatile, given?_next_of_volatile h.volatile, h.ahead_eq]
  cases hahead : (w.store.table id).after last with
  | nil => exact ⟨last, by simpa using h⟩
  | cons e es =>
    have hsorted : (e :: es).Pairwise fun a b => compare a.1 b.1 = .lt :=
      (w.store.table id).sorted.sublist (hahead ▸ SortedMap.after_suffix _ last).sublist
    obtain ⟨hbefore, -⟩ := List.pairwise_cons.1 hsorted
    have hnew : ∀ k ∈ last, compare k e.1 = .lt :=
      (mem_after_iff.1 (hahead ▸ List.mem_cons_self)).2
    have hseen : ∀ key ∈ seen.map (·.1), compare key e.1 = .lt := by
      intro key hkey
      obtain ⟨k, hk, hle⟩ := h.upTo key hkey
      exact Std.TransCmp.lt_of_isLE_of_lt (Ordering.isLE_iff_ne_gt.2 hle) (hnew k hk)
    refine ⟨some e.1, h.volatile, ?_, ?_, ?_, ?_, ?_⟩
    · exact (Cursor.table_behind ..).trans h.table
    · show (w.cursor.behind e.1).place = _
      unfold Cursor.behind
      rw [h.place]
    · rw [List.map_append, List.pairwise_append]
      exact ⟨h.ascending, List.pairwise_singleton _ _, by simpa using hseen⟩
    · intro key hkey
      rw [List.map_append, List.mem_append] at hkey
      refine ⟨e.1, rfl, ?_⟩
      rcases hkey with hkey | hkey
      · simp [hseen key hkey]
      · simp [List.mem_singleton.1 hkey]
    · intro key hkey
      rw [List.map_append, List.mem_append]
      rcases h.complete key hkey with hgiven | hbehind
      · exact .inl (.inl hgiven)
      · -- The key is ahead, so it is the first one there or behind that.
        obtain ⟨f, hf, rfl⟩ := List.mem_map.1 (hlasting key hkey)
        have hmem : f ∈ e :: es := hahead ▸ mem_after_iff.2 ⟨hf, hbehind⟩
        rcases List.mem_cons.1 hmem with rfl | hmem
        · exact .inl (.inr List.mem_cons_self)
        · exact .inr (by simpa using hbefore f hmem)

/-- The key is in the table before and after each of the steps. -/
def Lasting (w : Walk) (steps : List Step) (key : Bytes) : Prop :=
  ∀ earlier, earlier <+: steps → key ∈ ((w.after earlier).store.table w.cursor.table).keys

theorem Lasting.of_concat {steps : List Step} {x : Step} {key : Bytes}
    (h : w.Lasting (steps ++ [x]) key) : w.Lasting steps key :=
  fun earlier he => h earlier (he.trans (List.prefix_append steps [x]))

theorem Lasting.now {steps : List Step} {key : Bytes} (h : w.Lasting steps key) :
    key ∈ ((w.after steps).store.table w.cursor.table).keys :=
  h steps (List.prefix_refl steps)

/-- A run of steps from the start of the table. -/
theorem read_after (hvolatile : w.store.engine = .volatile) (hplace : w.cursor.place = .after none)
    (steps : List Step) :
    ∃ last, (w.after steps).Read w.cursor.table (w.Lasting steps) (w.given steps) last := by
  induction steps using List.reverseRecOn with
  | nil => exact ⟨none, hvolatile, rfl, hplace, .nil, nofun, fun _ _ => .inr nofun⟩
  | append_singleton steps x ih =>
    obtain ⟨last, hread⟩ := ih
    rw [after_concat, given_concat]
    cases x with
    | next =>
      obtain ⟨last', hnext⟩ := hread.next fun _ hkey => hkey.now
      exact ⟨last', hnext.mono fun _ => Lasting.of_concat⟩
    | event e =>
      have hgiven : w.given steps ++ ((w.after steps).given? (.event e)).toList = w.given steps :=
        List.append_nil _
      rw [hgiven]
      exact ⟨last, (hread.event e).mono fun _ => Lasting.of_concat⟩

/-! ### Tables without a name -/

/-- Two walks with one cursor, on equal tables. In the first no name leads to the table. -/
structure Parallel (id : TableId) (w w' : Walk) : Prop where
  cursor : w'.cursor = w.cursor
  table : w.cursor.table = id
  volatile : w.store.engine = .volatile
  volatile' : w'.store.engine = .volatile
  made : id < w.store.tables.length
  made' : id < w'.store.tables.length
  contents : w'.store.table id = w.store.table id
  nameless : ∀ q, w.store.tableId? q ≠ some id

theorem Parallel.ahead_eq (h : w.Parallel id w') :
    w'.cursor.ahead w'.store = w.cursor.ahead w.store := by
  rw [h.cursor]
  exact Cursor.ahead_congr_table (h.table.symm ▸ h.contents)

theorem Parallel.next (h : w.Parallel id w') :
    w'.given? .next = w.given? .next ∧ (w.step .next).Parallel id (w'.step .next) := by
  have htable : (w.step .next).cursor.table = id := by
    rw [step_next_of_volatile h.volatile]
    dsimp only
    cases (w.cursor.ahead w.store).head? with
    | none => exact h.table
    | some e => exact (Cursor.table_behind ..).trans h.table
  refine ⟨?_, ?_, htable, h.volatile, h.volatile', h.made, h.made', h.contents, h.nameless⟩
  · rw [given?_next_of_volatile h.volatile, given?_next_of_volatile h.volatile', h.ahead_eq]
  · rw [step_next_of_volatile h.volatile, step_next_of_volatile h.volatile', h.ahead_eq, h.cursor]

/-- Both walks see what is written to the table. -/
theorem Parallel.write (h : w.Parallel id w') (key : Bytes) (f : Table → Table)
    {v v' : Walk} (hv : v = ⟨(w.store.visit id key).setTable id (f (w.store.table id)), w.cursor⟩)
    (hv' : v' = ⟨(w'.store.visit id key).setTable id (f (w'.store.table id)), w'.cursor⟩) :
    v.Parallel id v' := by
  subst hv hv'
  have hset : ∀ s : Store, id < s.tables.length → ∀ t,
      ((s.visit id key).setTable id t).table id = t := by
    intro s hmade t
    rw [table_setTable t (by rwa [tables_visit]), if_pos rfl]
  refine ⟨h.cursor, h.table, (engine_visit ..).trans h.volatile,
    (engine_visit ..).trans h.volatile', ?_, ?_, ?_, ?_⟩
  · simpa [setTable] using h.made
  · simpa [setTable] using h.made'
  · rw [hset _ h.made, hset _ h.made', h.contents]
  · intro q hq
    have hsame : ((w.store.visit id key).setTable id (f (w.store.table id))).tableId? q
        = w.store.tableId? q := congrArg (SortedMap.find? · q) (partitions_visit w.store id key)
    exact h.nameless q (hsame ▸ hq)

/-- Anything else has no part in the table. -/
theorem Parallel.other (h : w.Parallel id w') {e : Event}
    (he : Step.concerns id (.event e) = false) : (w.step (.event e)).Parallel id w' := by
  have htarget : e.target? w.store ≠ some id := by
    cases e with
    | put id' key value | erase id' key =>
      rintro heq
      cases heq
      simp [Step.concerns] at he
    | ask | freshId => exact nofun
    | change c =>
      cases c with
      | create | remove => exact nofun
      | put p | erase p => exact h.nameless p
  refine ⟨h.cursor, h.table, (engine_happen w.store e).trans h.volatile, h.volatile', ?_, h.made',
    ?_, fun q hq => h.nameless q (tableId?_happen h.made hq)⟩
  · exact Nat.lt_of_lt_of_le h.made (length_tables_happen w.store e)
  · rw [h.contents]
    exact (table_happen h.made htarget).symm

/-- A cursor on a table without a name gives the same when all steps are left out that do not
concern the table. -/
theorem Parallel.given_eq (h : w.Parallel id w') (steps : List Step) :
    w'.given (steps.filter (·.concerns id)) = w.given steps := by
  induction steps generalizing w w' with
  | nil => rfl
  | cons x steps ih =>
    cases x with
    | next =>
      obtain ⟨hgiven, hnext⟩ := h.next
      rw [List.filter_cons_of_pos rfl, given, given, hgiven, ih hnext]
    | event e =>
      cases he : Step.concerns id (.event e) with
      | false =>
        rw [List.filter_cons_of_neg (by simp [he]), given, ih (h.other he)]
        rfl
      | true =>
        have hstep : (w.step (.event e)).Parallel id (w'.step (.event e)) := by
          cases e with
          | put id' key value =>
            obtain rfl : id' = id := by simpa [Step.concerns] using he
            exact h.write key (·.insert key value) rfl rfl
          | erase id' key =>
            obtain rfl : id' = id := by simpa [Step.concerns] using he
            exact h.write key (·.erase key) rfl rfl
          | ask | freshId => cases he
          | change c => cases he
        rw [List.filter_cons_of_pos he, given, given, ih hstep]
        rfl

theorem made_after (h : id < w.store.tables.length) (steps : List Step) :
    id < (w.after steps).store.tables.length := by
  induction steps generalizing w with
  | nil => exact h
  | cons x steps ih =>
    cases x with
    | next => exact ih h
    | event e => exact ih (Nat.lt_of_lt_of_le h (length_tables_happen w.store e))

/-- Names that lead to an old table led there all the time. -/
theorem tableId?_after (hid : id < w.store.tables.length) {steps : List Step} {q : String}
    (h : (w.after steps).store.tableId? q = some id) : w.store.tableId? q = some id := by
  induction steps generalizing w with
  | nil => exact h
  | cons x steps ih =>
    cases x with
    | next => exact ih (w := w.step .next) hid h
    | event e =>
      have hmade : id < (w.store.happen e).tables.length :=
        Nat.lt_of_lt_of_le hid (length_tables_happen w.store e)
      exact tableId?_happen hid (ih (w := w.step (.event e)) hmade h)

/-- After any steps the keys that were `given` are ascending, and the next answer is an entry that
the cursor's own table has then; if there is none, every `Lasting` key was given. Once the name
leads elsewhere it never leads back to that table, and only steps on the table itself
(`Step.concerns`) matter to the cursor. -/
theorem gives_table (hs : w.store.InMemory) (hc : w.store.cursor p = .ok w.cursor)
    (steps : List Step) :
    ((w.given steps).map (·.1)).Pairwise (fun a b => compare a b = .lt)
      ∧ (∃ e?, (w.after steps).answer = .ok e?
        ∧ (∀ e ∈ e?, ((w.after steps).store.table w.cursor.table).find? e.1 = some e.2)
        ∧ (e? = none → ∀ key, w.Lasting steps key → key ∈ (w.given steps).map (·.1)))
      ∧ ((w.after steps).store.tableId? p ≠ some w.cursor.table → ∀ more,
        ((w.after steps).after more).store.tableId? p ≠ some w.cursor.table
          ∧ (w.after steps).given more
            = (w.after steps).given (more.filter (·.concerns w.cursor.table))) := by
  obtain ⟨hvolatile, hsound⟩ := hs.sound
  obtain ⟨id, hopen, hstart⟩ := map_eq_ok_iff.1 hc
  have hname : w.store.tableId? p = some id := openTable_eq_ok_iff.1 hopen
  have hplace : w.cursor.place = .after none := by rw [← hstart]; rfl
  have htable : w.cursor.table = id := by rw [← hstart]; rfl
  obtain ⟨last, hread⟩ := read_after hvolatile hplace steps
  rw [htable] at hread ⊢
  refine ⟨hread.ascending, ⟨_, answer_of_volatile hread.volatile, ?_, ?_⟩, ?_⟩
  · intro e he
    rw [hread.ahead_eq] at he
    exact SortedMap.find?_eq_some_iff.2 (mem_after_iff.1 (List.mem_of_head? he)).1
  · intro hend key hkey
    rcases hread.complete key hkey with hgiven | hbehind
    · exact hgiven
    · rw [hread.ahead_eq, List.head?_eq_none_iff] at hend
      have hnow := hkey.now
      rw [htable] at hnow
      obtain ⟨e, he, rfl⟩ := List.mem_map.1 hnow
      have hmem : e ∈ ((w.after steps).store.table id).after last := mem_after_iff.2 ⟨he, hbehind⟩
      rw [hend] at hmem
      cases hmem
  · intro hremoved more
    have hmade : id < w.store.tables.length := hsound.bounded p id hname
    have hnow : id < (w.after steps).store.tables.length := made_after hmade steps
    have hnameless : ∀ q, (w.after steps).store.tableId? q ≠ some id := by
      intro q hq
      obtain rfl := hsound.distinct q p id (tableId?_after hmade hq) hname
      exact hremoved hq
    refine ⟨fun h => hremoved (tableId?_after hnow h), ?_⟩
    have hparallel : (w.after steps).Parallel id (w.after steps) :=
      ⟨rfl, hread.table, hread.volatile, hread.volatile, hnow, hnow, rfl, hnameless⟩
    exact (hparallel.given_eq more).symm

/-- A cursor in front of two keys. -/
def twoKeys : Walk :=
  ⟨[Event.change (.create "p"), .change (.put "p" [1] [10]), .change (.put "p" [3] [30])].foldl
    happen .volatile, .start "p" 0⟩

/-- The key that the cursor stands on is taken away and one behind it is put; then the name is
removed, opened again and written to. -/
def disturbed : List Step :=
  [.next, .event (.change (.erase "p" [1])), .event (.put 0 [2] [20]),
    .event (.change (.remove "p")),
    .event (.change (.create "p")), .event (.change (.put "p" [9] [90])), .next, .next]

theorem lasting_disturbed : twoKeys.Lasting disturbed [3] := by
  have hall : ∀ n ≤ 8, [3] ∈ ((twoKeys.after (disturbed.take n)).store.table 0).keys := by decide
  intro earlier he
  rw [List.prefix_iff_eq_take.1 he]
  exact hall _ he.length_le

/-- The cursor gives the key put behind it and the one that was there all the time, then none, and
has no part in the new partition of the name. -/
theorem gives_twoKeys :
    twoKeys.store.InMemory ∧ twoKeys.store.cursor "p" = .ok twoKeys.cursor
      ∧ twoKeys.given disturbed = [([1], [10]), ([2], [20]), ([3], [30])]
      ∧ (twoKeys.after disturbed).answer = .ok none
      ∧ [3] ∈ (twoKeys.given disturbed).map (·.1)
      ∧ (twoKeys.after disturbed).store.tableId? "p" = some 1
      ∧ ∀ more, ((twoKeys.after disturbed).after more).store.tableId? "p" ≠ some 0 := by
  have hmade : twoKeys.store.InMemory := ⟨_, rfl⟩
  have hcursor : twoKeys.store.cursor "p" = .ok twoKeys.cursor := by decide
  have hname : (twoKeys.after disturbed).store.tableId? "p" = some 1 := by decide
  have hend : (twoKeys.after disturbed).answer = .ok none := by decide
  obtain ⟨-, ⟨e?, hanswer, -, hall⟩, hremoved⟩ := gives_table hmade hcursor disturbed
  rw [hend] at hanswer
  cases hanswer
  have hnew : (twoKeys.after disturbed).store.tableId? "p" ≠ some 0 := by
    rw [hname]
    decide
  exact ⟨hmade, hcursor, by decide, hend, hall rfl [3] lasting_disturbed, hname,
    fun more => (hremoved hnew more).1⟩

end Walk

end Store

end RelQuery
