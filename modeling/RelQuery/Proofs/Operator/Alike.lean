/-
  Operators do not see keys: over two stores whose tables have the same records in the same order,
  runs of an operator answer alike, whatever keys the records are under and however they lie in
  pages.

  A scan drops the key of each entry it reads, and what a run remembers of entries is rows. So it
  is a simulation that the records ahead of the cursors are the same and all else that is
  remembered is equal (`Operator.StatesAlike`): every call gives the same answer on both sides and
  keeps this. Nothing is asked of the records. One that cannot be read fails on both sides at the
  same row.

  Main statement: `Execution.query_alike`.
-/
import RelQuery.Execution
import RelQuery.Proofs.Operator.Calls

namespace RelQuery

open Store (Layout Cursor)

/-! ## Sources that answer alike -/

namespace Source

/-- The second answer is the first, with a state that is alike. -/
def SameAnswer {σ α : Type} (like : σ → σ → Prop) (a a' : Answer (σ × Layout) α) : Prop :=
  ∃ t' m', a' = (a.1, t', m') ∧ like a.2.1 t'

/-- In alike states both sources give the same answers, and come to alike states. -/
structure Alike {σ : Type} (S S' : Source σ) (like : σ → σ → Prop) : Prop where
  next : ∀ {s s' l answer t m}, like s s' → S.next s l = (answer, t, m) → ∀ l',
    ∃ t' m', S'.next s' l' = (answer, t', m') ∧ like t t'
  restart : ∀ {s s' answer t}, like s s' → S.restart s = (answer, t) →
    ∃ t', S'.restart s' = (answer, t') ∧ like t t'

variable {σ τ : Type} {L L' : Source σ} {R R' : Source τ} {likeL : σ → σ → Prop}
  {likeR : τ → τ → Prop} {on : Predicate} {l m : Layout} {answer : Except Error (Option Row)}

/-- Draining them gives the same. -/
theorem Alike.drain (h : L.Alike L' likeL) {α : Type} (f : Row → Except Error α) {s s' : σ}
    (hs : likeL s s') (l' : Layout) : (L'.drain f s' l').1 = (L.drain f s l).1 := by
  fun_induction L.drain f s l generalizing s' l' with
  | case1 s l e t m hn | case2 s l t m hn =>
    obtain ⟨t', m', hn', -⟩ := h.next hs hn l'
    rw [drain_of_next hn']
  | case3 s l row t m hn e he =>
    obtain ⟨t', m', hn', -⟩ := h.next hs hn l'
    rw [drain_of_next hn']
    dsimp only
    rw [he]
  | case4 s l row t m hn a ha rows k hrest ih =>
    obtain ⟨t', m', hn', ht⟩ := h.next hs hn l'
    have hrest' := ih ht m'
    rw [hrest] at hrest'
    rw [drain_of_next hn']
    dsimp only
    rw [ha]
    exact congrArg (Except.map (a :: ·)) hrest'

/-! ### Scans -/

/-- Cursors on tables of a relation with the same records, and with the same ones ahead. -/
structure CursorsAlike (s s' : Store) (r : Schema) (c c' : Cursor) : Prop where
  opened : s.openTable r.name = .ok c.table
  opened' : s'.openTable r.name = .ok c'.table
  records : (s'.table c'.table).records = (s.table c.table).records
  ahead : (c'.ahead s').map (·.2) = (c.ahead s).map (·.2)

section

variable {s s' : Store} {r : Schema} {filter : List Predicate} {c c' d : Cursor}

theorem CursorsAlike.start {id id' : TableId} (h : s.openTable r.name = .ok id)
    (h' : s'.openTable r.name = .ok id')
    (hrecords : (s'.table id').records = (s.table id).records) (p p' : String) :
    CursorsAlike s s' r (.start p id) (.start p' id') := ⟨h, h', hrecords, hrecords⟩

/-- They give entries with the same record. -/
theorem CursorsAlike.next (h : CursorsAlike s s' r c c')
    {answer : Except Error (Option (Bytes × Bytes))}
    (hn : c.next { s with layout := l } = (answer, d, m)) (l' : Layout) :
    ∃ e? e?' d' m', answer = .ok e? ∧ c'.next { s' with layout := l' } = (.ok e?', d', m')
      ∧ e?'.map (·.2) = e?.map (·.2) ∧ CursorsAlike s s' r d d' := by
  obtain ⟨f, k, hf, ha, ht, -⟩ := Cursor.next_of_openTable h.opened l
  obtain ⟨f', k', hf', ha', ht', -⟩ := Cursor.next_of_openTable h.opened' l'
  rw [hf] at hn
  cases hn
  refine ⟨_, _, f', k', rfl, hf', ?_, ht ▸ h.opened, ht' ▸ h.opened', ?_, ?_⟩
  · rw [← List.head?_map, ← List.head?_map, h.ahead]
  · rw [ht, ht']
    exact h.records
  · rw [ha, ha', List.map_tail, List.map_tail, h.ahead]

theorem CursorsAlike.next_some (h : CursorsAlike s s' r c c') {key record : Bytes}
    (hn : c.next { s with layout := l } = (.ok (some (key, record)), d, m)) (l' : Layout) :
    ∃ key' d' m', c'.next { s' with layout := l' } = (.ok (some (key', record)), d', m')
      ∧ CursorsAlike s s' r d d' := by
  obtain ⟨_, e?', d', m', hok, hn', hsame, hd⟩ := h.next hn l'
  cases hok
  obtain ⟨⟨key', _⟩, rfl, rfl⟩ := Option.map_eq_some_iff.1 hsame
  exact ⟨key', d', m', hn', hd⟩

/-- They go on to the same row. -/
theorem CursorsAlike.firstMatch (h : CursorsAlike s s' r c c')
    (hm : Source.firstMatch s r filter c l = (answer, d, m)) (l' : Layout) :
    ∃ d' m', Source.firstMatch s' r filter c' l' = (answer, d', m')
      ∧ CursorsAlike s s' r d d' := by
  refine Loop.run_alike hm (matching s' r filter) (c', l')
    (fun u u' => CursorsAlike s s' r u.1 u'.1) (SameAnswer (CursorsAlike s s' r)) h ?_
  rintro ⟨c, l⟩ ⟨c', l'⟩ h
  simp only [matching, searching]
  generalize hn : c.next { s with layout := l } = asked
  obtain ⟨_ | _ | ⟨key, record⟩, d, m⟩ := asked
  · obtain ⟨e?, -, -, -, he, -⟩ := h.next hn l'
    cases he
  · obtain ⟨_, e?', d', m', hok, hn', hsame, hd⟩ := h.next hn l'
    cases hok
    obtain rfl := Option.map_eq_none_iff.1 hsame
    rw [hn']
    exact .done ⟨d', m', rfl, hd⟩
  · obtain ⟨key', d', m', hn', hd⟩ := h.next_some hn l'
    have hverdict : matchVerdict r filter (key', record) = matchVerdict r filter (key, record) :=
      rfl
    rw [hn']
    simp only [searchRound, hverdict]
    cases matchVerdict r filter (key, record) with
    | some found => exact .done ⟨d', m', rfl, hd⟩
    | none => exact .again hd

theorem Alike.scan (s s' : Store) (r : Schema) (filter : List Predicate) :
    (Source.scan s r filter).Alike (Source.scan s' r filter)
      (Option.Rel (CursorsAlike s s' r)) where
  next := by
    intro c c' l answer d m h hn l'
    cases h with
    | none =>
      cases hn
      exact ⟨none, l', rfl, .none⟩
    | @some c c' h =>
      obtain ⟨d, rfl, hm⟩ := exists_of_next_scan hn
      obtain ⟨d', k', hm', hd⟩ := h.firstMatch hm l'
      exact ⟨some d', k', next_scan hm', .some hd⟩
  restart := by
    intro c c' answer d h hr
    cases h with
    | none =>
      cases hr
      exact ⟨none, rfl, .none⟩
    | @some c c' h =>
      cases hr
      exact ⟨_, rfl, .some (.start h.opened h.opened' h.records _ _)⟩

end

/-! ### Nested loops -/

/-- Alike inputs, and the same left row at hand. -/
structure LoopsAlike (likeL : σ → σ → Prop) (likeR : τ → τ → Prop) (s s' : LoopState σ τ) :
    Prop where
  left : likeL s.left s'.left
  right : likeR s.right s'.right
  held : s'.held = s.held
  exhausted : s'.exhausted = s.exhausted

theorem searchRound_alike {α : Type} {like : σ → σ → Prop}
    {verdict : α → Option (Except Error Row)} {asked asked' : Answer (σ × Layout) (Option α)}
    (h : SameAnswer like asked asked') :
    (searchRound verdict asked).Alike (fun s s' => like s.1 s'.1) (SameAnswer like)
      (searchRound verdict asked') := by
  obtain ⟨_ | _ | a, s, l⟩ := asked <;> obtain ⟨s', l', rfl, hs⟩ := h
  · exact .done ⟨s', l', rfl, hs⟩
  · exact .done ⟨s', l', rfl, hs⟩
  · simp only [searchRound]
    cases verdict a with
    | some found => exact .done ⟨s', l', rfl, hs⟩
    | none => exact .again hs

theorem Alike.probe (h : R.Alike R' likeR) {row : Row} {t t' u : τ} (ht : likeR t t')
    (hp : R.probe on row t l = (answer, u, m)) (l' : Layout) :
    ∃ u' m', R'.probe on row t' l' = (answer, u', m') ∧ likeR u u' :=
  Loop.run_alike hp (R'.probing on row) (t', l') (fun v v' => likeR v.1 v'.1) (SameAnswer likeR) ht
    fun _ v' hv => searchRound_alike (h.next hv rfl v'.2)

theorem Alike.sweep (h : R.Alike R' likeR) {row : Row} {t t' u : τ} (ht : likeR t t')
    (hs : R.sweep on row t l = (answer, u, m)) (l' : Layout) :
    ∃ u' m', R'.sweep on row t' l' = (answer, u', m') ∧ likeR u u' := by
  unfold Source.sweep sweptBack at hs ⊢
  generalize hp : R.probe on row t l = probed at hs
  obtain ⟨found, v, k⟩ := probed
  obtain ⟨v', k', hp', hv⟩ := h.probe ht hp l'
  rw [hp']
  rcases found with e | _ | joined
  · cases hs
    exact ⟨v', k', rfl, hv⟩
  · dsimp only at hs ⊢
    generalize hr : R.restart v = back at hs
    obtain ⟨found, w⟩ := back
    obtain ⟨w', hr', hw⟩ := h.restart hv hr
    rw [hr']
    cases found <;> (cases hs; exact ⟨w', k', rfl, hw⟩)
  · cases hs
    exact ⟨v', k', rfl, hv⟩

theorem heldRound_alike {left left' : σ} {row : Row}
    {swept swept' : Answer (τ × Layout) (Option Row)} (hleft : likeL left left')
    (h : SameAnswer likeR swept swept') :
    (heldRound left row swept).Alike (fun u u' => likeL u.1 u'.1 ∧ likeR u.2.1 u'.2.1)
      (SameAnswer (LoopsAlike likeL likeR)) (heldRound left' row swept') := by
  obtain ⟨_ | _ | joined, t, l⟩ := swept <;> obtain ⟨t', l', rfl, ht⟩ := h
  · exact .done ⟨_, l', rfl, hleft, ht, rfl, rfl⟩
  · exact .again ⟨hleft, ht⟩
  · exact .done ⟨_, l', rfl, hleft, ht, rfl, rfl⟩

theorem Alike.pull (hL : L.Alike L' likeL) (hR : R.Alike R' likeR) {s s' : σ} {t t' : τ}
    {u : LoopState σ τ} (hs : likeL s s') (ht : likeR t t')
    (hp : Source.pull L R on s t l = (answer, u, m)) (l' : Layout) :
    ∃ u' m', Source.pull L' R' on s' t' l' = (answer, u', m') ∧ LoopsAlike likeL likeR u u' := by
  refine Loop.run_alike hp (pulling L' R' on) (s', t', l')
    (fun v v' => likeL v.1 v'.1 ∧ likeR v.2.1 v'.2.1) (SameAnswer (LoopsAlike likeL likeR))
    ⟨hs, ht⟩ ?_
  rintro ⟨s, t, l⟩ ⟨s', t', l'⟩ ⟨hs, ht⟩
  simp only [pulling, pullRound]
  generalize hn : L.next s l = asked
  obtain ⟨found, v, k⟩ := asked
  obtain ⟨v', k', hn', hv⟩ := hL.next hs hn l'
  rw [hn']
  rcases found with e | _ | row
  · exact .done ⟨_, k', rfl, hv, ht, rfl, rfl⟩
  · exact .done ⟨_, k', rfl, hv, ht, rfl, rfl⟩
  · exact heldRound_alike hv (hR.sweep ht rfl k')

theorem Alike.nestedLoop (hL : L.Alike L' likeL) (hR : R.Alike R' likeR) :
    (Source.nestedLoop L R on).Alike (Source.nestedLoop L' R' on)
      (LoopsAlike likeL likeR) where
  next := by
    intro s s' l answer u m h hn l'
    have hn : Source.nextJoined L R on s l = (answer, u, m) := hn
    show SameAnswer (LoopsAlike likeL likeR) (answer, u, m) (Source.nextJoined L' R' on s' l')
    rw [← hn]
    obtain ⟨left, right, _, _⟩ := s
    obtain ⟨left', right', held, _ | _⟩ := s'
    · obtain ⟨hleft, hright, rfl, rfl⟩ := h
      cases held with
      | none => exact hL.pull hR hleft hright rfl l'
      | some row =>
        rw [nextJoined_of_sweep rfl, nextJoined_of_sweep rfl]
        have hswept : SameAnswer likeR (R.sweep on row right l) (R'.sweep on row right' l') :=
          hR.sweep hright rfl l'
        exact (heldRound_alike hleft hswept).finish fun v v' hv => hL.pull hR hv.1 hv.2 rfl v'.2.2
    · obtain ⟨hleft, hright, rfl, rfl⟩ := h
      exact ⟨_, l', rfl, hleft, hright, rfl, rfl⟩
  restart := by
    intro s s' answer u h hr
    obtain ⟨left, right, _, _⟩ := s
    obtain ⟨left', right', held, exhausted⟩ := s'
    obtain ⟨hleft, hright, rfl, rfl⟩ := h
    simp only [Source.nestedLoop] at hr ⊢
    generalize hback : L.restart left = back at hr
    obtain ⟨found, t⟩ := back
    obtain ⟨t', hback', ht⟩ := hL.restart hleft hback
    rw [hback']
    cases found with
    | error e =>
      cases hr
      exact ⟨_, rfl, ht, hright, rfl, rfl⟩
    | ok =>
      dsimp only at hr ⊢
      generalize hback : R.restart right = back at hr
      obtain ⟨found, v⟩ := back
      obtain ⟨v', hback', hv⟩ := hR.restart hright hback
      rw [hback']
      cases found <;> (cases hr; exact ⟨_, rfl, ht, hv, rfl, rfl⟩)

/-! ### Hash tables -/

/-- Alike inputs, and the same buckets and pairs that wait. -/
structure HashesAlike (likeL : σ → σ → Prop) (likeR : τ → τ → Prop) (s s' : HashState σ τ) :
    Prop where
  left : likeL s.left s'.left
  right : likeR s.right s'.right
  buckets : s'.buckets = s.buckets
  pending : s'.pending = s.pending
  exhausted : s'.exhausted = s.exhausted

theorem Alike.collect (h : R.Alike R' likeR) {key : Term} {buckets filled : List (Datum × Row)}
    {t t' u : τ} {answer : Except Error Unit} (ht : likeR t t')
    (hc : R.collect key buckets t l = (answer, filled, u, m)) (l' : Layout) :
    ∃ u' m', R'.collect key buckets t' l' = (answer, filled, u', m') ∧ likeR u u' := by
  refine Loop.run_alike hc (R'.collecting key) (buckets, t', l')
    (fun v v' => v'.1 = v.1 ∧ likeR v.2.1 v'.2.1)
    (fun a a' => ∃ u' m', a' = (a.1, a.2.1, u', m') ∧ likeR a.2.2.1 u') ⟨rfl, ht⟩ ?_
  rintro ⟨buckets, t, l⟩ ⟨_, t', l'⟩ ⟨rfl, ht⟩
  simp only [collecting]
  generalize hn : R.next t l = asked
  obtain ⟨found, u, k⟩ := asked
  obtain ⟨u', k', hn', hu⟩ := h.next ht hn l'
  rw [hn']
  rcases found with e | _ | row
  · exact .done ⟨u', k', rfl, hu⟩
  · exact .done ⟨u', k', rfl, hu⟩
  · simp only [collectRound]
    cases key.value row with
    | error e => exact .done ⟨u', k', rfl, hu⟩
    | ok found => exact .again ⟨rfl, hu⟩

theorem Alike.nextPaired (hL : L.Alike L' likeL) {s s' u : HashState σ τ}
    (hs : HashesAlike likeL likeR s s') (hp : Source.nextPaired L on s l = (answer, u, m))
    (l' : Layout) :
    ∃ u' m', Source.nextPaired L' on s' l' = (answer, u', m') ∧ HashesAlike likeL likeR u u' := by
  refine Loop.run_alike hp (pairing L' on) (s', l')
    (fun v v' => HashesAlike likeL likeR v.1 v'.1) (SameAnswer (HashesAlike likeL likeR)) hs ?_
  rintro ⟨⟨left, right, _, _, _⟩, l⟩ ⟨⟨left', right', buckets, _ | ⟨pair, pairs⟩, _ | _⟩, l'⟩
    ⟨hleft, hright, rfl, rfl, rfl⟩
  · simp only [pairing, pairRound]
    generalize hn : L.next left l = asked
    obtain ⟨found, t, k⟩ := asked
    obtain ⟨t', k', hn', ht⟩ := hL.next hleft hn l'
    rw [hn']
    rcases found with e | _ | row
    · exact .done ⟨_, k', rfl, ht, hright, rfl, rfl, rfl⟩
    · exact .done ⟨_, k', rfl, ht, hright, rfl, rfl, rfl⟩
    · dsimp only [bind]
      cases on.left.value row with
      | error e => exact .done ⟨_, k', rfl, ht, hright, rfl, rfl, rfl⟩
      | ok key => exact .again ⟨ht, hright, rfl, rfl, rfl⟩
  all_goals exact .done ⟨_, l', rfl, hleft, hright, rfl, rfl, rfl⟩

theorem Alike.hash (hL : L.Alike L' likeL) :
    (Source.hash L on).Alike (Source.hash L' on) (HashesAlike likeL likeR) where
  next := by
    intro s s' l answer u m h hn l'
    exact hL.nextPaired h hn l'
  restart := by
    intro s s' answer u h hr
    obtain ⟨left, right, _, _, _⟩ := s
    obtain ⟨left', right', buckets, pending, exhausted⟩ := s'
    obtain ⟨hleft, hright, rfl, rfl, rfl⟩ := h
    simp only [Source.hash] at hr ⊢
    generalize hback : L.restart left = back at hr
    obtain ⟨found, t⟩ := back
    obtain ⟨t', hback', ht⟩ := hL.restart hleft hback
    rw [hback']
    cases found <;> (cases hr; exact ⟨_, rfl, ht, hright, rfl, rfl, rfl⟩)

/-! ### Projections -/

theorem Alike.project (h : L.Alike L' likeL) (outputs : List Term) :
    (Source.project L outputs).Alike (Source.project L' outputs) likeL where
  next := by
    intro s s' l answer t m hs hn l'
    simp only [Source.project] at hn ⊢
    generalize hasked : L.next s l = asked at hn
    obtain ⟨found, u, k⟩ := asked
    obtain ⟨u', k', hasked', hu⟩ := h.next hs hasked l'
    rw [hasked']
    rcases found with e | _ | row <;> (cases hn; exact ⟨u', k', rfl, hu⟩)
  restart := by
    intro s s' answer t hs hr
    cases hr
    exact ⟨s', rfl, hs⟩

end Source

/-! ## Operators -/

namespace Operator

/-- What two runs remember is the same, but for keys. -/
def StatesAlike (s s' : Store) : (op : Operator) → op.State → op.State → Prop
  | scan r _ => Option.Rel (Source.CursorsAlike s s' r)
  | nestedLoop _ left right =>
    Source.LoopsAlike (left.StatesAlike s s') (right.StatesAlike s s')
  | hash _ left right => Source.HashesAlike (left.StatesAlike s s') (right.StatesAlike s s')
  | project _ input => input.StatesAlike s s'

variable {s s' : Store}

theorem statesAlike_initial (s s' : Store) (op : Operator) :
    op.StatesAlike s s' op.initial op.initial := by
  induction op with
  | scan => exact .none
  | nestedLoop on left right ihl ihr => exact ⟨ihl, ihr, rfl, rfl⟩
  | hash on left right ihl ihr => exact ⟨ihl, ihr, rfl, rfl, rfl⟩
  | project outputs input ih => exact ih

theorem alike (s s' : Store) (op : Operator) :
    (op.source s).Alike (op.source s') (op.StatesAlike s s') := by
  induction op with
  | scan r filter => exact .scan s s' r filter
  | nestedLoop on left right ihl ihr => exact ihl.nestedLoop ihr
  | hash on left right ihl ihr => exact ihl.hash
  | project outputs input ih => exact ih.project outputs

/-- Opening gives the same answer, too, if the relations have the same records. -/
theorem alike_acquire {op : Operator} (h : ∀ r ∈ op.plan.scans, s.SameRecords s' r.name)
    {t t' u : op.State} {l m : Layout} {answer : Except Error Unit} (ht : op.StatesAlike s s' t t')
    (ha : op.acquire s t l = (answer, u, m)) (l' : Layout) :
    ∃ u' m', op.acquire s' t' l' = (answer, u', m') ∧ op.StatesAlike s s' u u' := by
  induction op generalizing l m l' answer with
  | scan r filter =>
    have hsame := h r List.mem_cons_self
    rw [acquire_scan, Store.cursor] at ha ⊢
    cases hid : s.openTable r.name with
    | error e =>
      rw [hid] at ha
      rw [hsame.openTable_of_error hid]
      cases ha
      exact ⟨t', l', rfl, ht⟩
    | ok id =>
      obtain ⟨id', hid', hrecords⟩ := hsame.openTable_of_ok hid
      rw [hid] at ha
      rw [hid']
      cases ha
      exact ⟨_, l', rfl, .some (.start hid hid' hrecords _ _)⟩
  | nestedLoop on left right ihl ihr =>
    have hscans := List.forall_mem_append.1 h
    rw [acquire_nestedLoop] at ha ⊢
    generalize hl : left.acquire s t.left l = opened at ha
    obtain ⟨found, v, k⟩ := opened
    obtain ⟨v', k', hl', hv⟩ := ihl hscans.1 ht.left hl l'
    rw [hl']
    cases found with
    | error e =>
      cases ha
      exact ⟨_, k', rfl, hv, ht.right, ht.held, ht.exhausted⟩
    | ok =>
      dsimp only at ha ⊢
      generalize hr : right.acquire s t.right k = opened at ha
      obtain ⟨found, w, i⟩ := opened
      obtain ⟨w', i', hr', hw⟩ := ihr hscans.2 ht.right hr k'
      rw [hr']
      cases ha
      exact ⟨_, i', rfl, hv, hw, ht.held, ht.exhausted⟩
  | hash on left right ihl ihr =>
    have hscans := List.forall_mem_append.1 h
    rw [acquire_hash] at ha ⊢
    generalize hl : left.acquire s t.left l = opened at ha
    obtain ⟨found, v, k⟩ := opened
    obtain ⟨v', k', hl', hv⟩ := ihl hscans.1 ht.left hl l'
    rw [hl']
    cases found with
    | error e =>
      cases ha
      exact ⟨_, k', rfl, hv, ht.right, ht.buckets, ht.pending, ht.exhausted⟩
    | ok =>
      dsimp only at ha ⊢
      generalize hr : right.acquire s t.right k = opened at ha
      obtain ⟨found, w, i⟩ := opened
      obtain ⟨w', i', hr', hw⟩ := ihr hscans.2 ht.right hr k'
      rw [hr']
      cases found with
      | error e =>
        cases ha
        exact ⟨_, i', rfl, hv, hw, ht.buckets, ht.pending, ht.exhausted⟩
      | ok =>
        dsimp only at ha ⊢
        generalize hc : (right.source s).collect on.right [] w i = collected at ha
        obtain ⟨found, buckets, x, q⟩ := collected
        obtain ⟨x', q', hc', hx⟩ := (right.alike s s').collect hw hc i'
        rw [hc']
        cases ha
        exact ⟨_, q', rfl, hv, hx, rfl, ht.pending, ht.exhausted⟩
  | project outputs input ih => exact ih h ht ha l'

end Operator

/-! ## Queries -/

/-- A query plan gives the same over stores in which its relations have the same records. -/
theorem Execution.query_alike {s s' : Store} {plan : Plan}
    (h : ∀ r ∈ plan.scans, s.SameRecords s' r.name) (l l' : Layout) :
    (query s' plan l').1 = (query s plan l).1 := by
  unfold query
  cases hop : Operator.ofPlan plan with
  | error e => rfl
  | ok op =>
    obtain rfl := Operator.plan_of_ofPlan hop
    cases op with
    | scan | nestedLoop | hash => rfl
    | project outputs input =>
      have h : ∀ r ∈ input.plan.scans, s.SameRecords s' r.name := h
      dsimp only
      generalize ha : input.acquire s input.initial l = opened
      obtain ⟨found, t, m⟩ := opened
      obtain ⟨t', m', ha', ht⟩ :=
        Operator.alike_acquire h (Operator.statesAlike_initial s s' input) ha l'
      rw [ha']
      cases found with
      | error e => rfl
      | ok =>
        have hdrain := (input.alike s s').drain (Source.valuesOf outputs) (l := m) ht m'
        exact congrArg (Except.map _) hdrain

end RelQuery
