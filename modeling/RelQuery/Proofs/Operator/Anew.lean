/-
  Operators that begin anew, by a restart or by a release.

  A restart asks for no tables: it moves cursors back and forgets the rows that joins remember, and
  a hash join keeps its buckets. That this leads back to the state right after opening rests on
  what calls leave alone (`Operator.MovedOn`): a cursor stays on its table, and nobody touches the
  buckets or the right input of a hash join once it is open. An operator that cannot be restarted
  refuses before anything is changed, as only the left inputs lead to the projection that is in the
  way. A release goes to every input, so nothing can be left over, whatever happened before.

  Opening a run again without a release in between is no such beginning: joins keep their rows.

  Main statements: `Operator.restart_of_opened` and `Operator.replies_release`.
-/
import RelQuery.Proofs.Operator.Alike

namespace RelQuery

open Store (Layout Cursor)

/-! ## Cursors stay on their table -/

namespace Store.Cursor

variable {c d : Cursor} {s : Store} {m : Layout}

theorem restart_copied (c : Cursor) (s : Store) : (c.copied s).restart = c.restart := by
  unfold copied
  split <;> rfl

theorem restart_behind (c : Cursor) (key : Bytes) : (c.behind key).restart = c.restart := by
  unfold behind
  split <;> rfl

theorem restart_of_settle (h : c.settle s = .ok (d, m)) : d.restart = c.restart := by
  unfold settle at h
  split at h
  · split at h
    · cases h
      exact restart_copied _ _
    · cases h
  · cases h
    rfl

/-- Whatever a cursor answers, it starts again where it would have before. -/
theorem restart_of_next {answer : Except Error (Option (Bytes × Bytes))}
    (h : c.next s = (answer, d, m)) : d.restart = c.restart := by
  unfold next at h
  split at h
  · cases h
    rfl
  · rename_i hsettle
    have hsettled := restart_of_settle hsettle
    split at h
    · cases h
      exact hsettled
    · cases h
      rw [restart_behind, hsettled]

end Store.Cursor

/-! ## Sources -/

namespace Source

variable {σ τ : Type} {L : Source σ} {R : Source τ} {on : Predicate} {l m : Layout}

/-- The answers to a number of calls for a row, failures among them. -/
def answers (L : Source σ) : (calls : Nat) → σ → Layout → List (Except Error (Option Row))
  | 0, _, _ => []
  | calls + 1, s, l =>
    match L.next s l with
    | (answer, t, m) => answer :: L.answers calls t m

theorem Alike.answers {L' : Source σ} {like : σ → σ → Prop} (h : L.Alike L' like) (calls : Nat)
    {s s' : σ} (hs : like s s') (l l' : Layout) :
    L'.answers calls s' l' = L.answers calls s l := by
  induction calls generalizing s s' l l' with
  | zero => rfl
  | succ calls ih =>
    unfold Source.answers
    generalize hn : L.next s l = asked
    obtain ⟨answer, t, m⟩ := asked
    obtain ⟨t', m', hn', ht⟩ := h.next hs hn l'
    rw [hn']
    exact congrArg (answer :: ·) (ih ht m m')

/-! ### Scans -/

/-- A cursor that was at the start of its table. -/
def ScanMoved (first c : Option Cursor) : Prop := ∃ d, c = some d ∧ first = some d.restart

theorem restart_of_firstMatch {store : Store} {r : Schema} {filter : List Predicate}
    {c d : Cursor} {answer : Except Error (Option Row)}
    (h : firstMatch store r filter c l = (answer, d, m)) : d.restart = c.restart :=
  firstMatch_keeps (P := (·.restart = c.restart))
    (fun hc hn => (Cursor.restart_of_next hn).trans hc) rfl h

theorem Keeps.scanMoved (store : Store) (r : Schema) (filter : List Predicate)
    (first : Option Cursor) :
    (Source.scan store r filter).Keeps (ScanMoved first) fun _ => True where
  next := by
    rintro _ l answer _ m ⟨c, rfl, rfl⟩ h
    obtain ⟨d, rfl, hm⟩ := exists_of_next_scan h
    exact ⟨⟨d, rfl, by rw [restart_of_firstMatch hm]⟩, fun _ _ => trivial⟩
  restart := by
    rintro _ ⟨c, rfl, rfl⟩
    exact ⟨c.restart, rfl, rfl⟩

/-! ### Nested loops -/

/-- The inputs moved on, and a left row may be at hand now. -/
structure LoopMoved (movedL : σ → σ → Prop) (movedR : τ → τ → Prop) (first s : LoopState σ τ) :
    Prop where
  left : movedL first.left s.left
  right : movedR first.right s.right
  held : first.held = none
  exhausted : first.exhausted = false

theorem Keeps.loopMoved {movedL : σ → σ → Prop} {movedR : τ → τ → Prop} {first : LoopState σ τ}
    (hL : L.Keeps (movedL first.left) fun _ => True)
    (hR : R.Keeps (movedR first.right) fun _ => True) :
    (Source.nestedLoop L R on).Keeps (LoopMoved movedL movedR first) fun _ => True := by
  have hkeeps : (Source.nestedLoop L R on).Keeps
      (LoopKept (movedL first.left) (movedR first.right) fun _ => True) _ := hL.nestedLoop hR
  constructor
  case next =>
    intro s l answer t m hs h
    obtain ⟨hkept, -⟩ := hkeeps.next ⟨hs.left, hs.right, fun _ _ => trivial⟩ h
    exact ⟨⟨hkept.left, hkept.right, hs.held, hs.exhausted⟩, fun _ _ => trivial⟩
  case restart =>
    intro s hs
    have hkept := hkeeps.restart ⟨hs.left, hs.right, fun _ _ => trivial⟩
    exact ⟨hkept.left, hkept.right, hs.held, hs.exhausted⟩

/-! ### Hash tables -/

/-- The left input moved on, and pairs may be waiting now; the rest is as it was. -/
structure HashMoved (movedL : σ → σ → Prop) (first s : HashState σ τ) : Prop where
  left : movedL first.left s.left
  right : s.right = first.right
  buckets : s.buckets = first.buckets
  pending : first.pending = []
  exhausted : first.exhausted = false

theorem HashMoved.nextPaired {movedL : σ → σ → Prop} {first s u : HashState σ τ}
    (hL : L.Keeps (movedL first.left) fun _ => True) (hs : HashMoved movedL first s)
    {answer : Except Error (Option Row)} (h : Source.nextPaired L on s l = (answer, u, m)) :
    HashMoved movedL first u := by
  refine Loop.run_leads h (fun v => HashMoved movedL first v.1)
    (fun a => HashMoved movedL first a.2.1) hs ?_
  rintro ⟨s, l⟩ ⟨hleft, hright, hbuckets, hpending, hexhausted⟩
  refine pairRound_leads ?pending ?exhausted ?failed ?last ?again
  case pending => exact fun _ _ _ _ => ⟨hleft, hright, hbuckets, hpending, hexhausted⟩
  case exhausted => exact fun _ _ => ⟨hleft, hright, hbuckets, hpending, hexhausted⟩
  case failed =>
    exact fun _ _ _ _ _ hn => ⟨(hL.next hleft hn).1, hright, hbuckets, hpending, hexhausted⟩
  case last =>
    exact fun _ _ _ hn => ⟨(hL.next hleft hn).1, hright, hbuckets, hpending, hexhausted⟩
  case again =>
    exact fun _ _ _ _ _ hn _ => ⟨(hL.next hleft hn).1, hright, hbuckets, hpending, hexhausted⟩

theorem Keeps.hashMoved {movedL : σ → σ → Prop} {first : HashState σ τ}
    (hL : L.Keeps (movedL first.left) fun _ => True) :
    (Source.hash L on).Keeps (HashMoved movedL first) fun _ => True where
  next hs h := ⟨hs.nextPaired hL h, fun _ _ => trivial⟩
  restart := by
    intro s hs
    have hleft : movedL first.left (L.restart s.left).2 := hL.restart hs.left
    simp only [Source.hash]
    split
    · rename_i hl
      rw [hl] at hleft
      exact ⟨hleft, hs.right, hs.buckets, hs.pending, hs.exhausted⟩
    · rename_i hl
      rw [hl] at hleft
      exact ⟨hleft, hs.right, hs.buckets, hs.pending, hs.exhausted⟩

/-! ### Projections -/

theorem Keeps.projectMoved {moved : σ → Prop} (hL : L.Keeps moved fun _ => True)
    (outputs : List Term) : (Source.project L outputs).Keeps moved fun _ => True :=
  hL.project.mono fun _ _ => trivial

end Source

/-! ## Restarts -/

namespace Operator

/-- What a run may have become since it was in a first state, right after it was opened. -/
def MovedOn : (op : Operator) → (first s : op.State) → Prop
  | scan _ _ => Source.ScanMoved
  | nestedLoop _ left right => Source.LoopMoved left.MovedOn right.MovedOn
  | hash _ left _ => Source.HashMoved left.MovedOn
  | project _ input => input.MovedOn

theorem keeps_movedOn (store : Store) (op : Operator) (first : op.State) :
    (op.source store).Keeps (op.MovedOn first) fun _ => True := by
  induction op with
  | scan r filter => exact .scanMoved store r filter first
  | nestedLoop on left right ihl ihr => exact (ihl first.left).loopMoved (ihr first.right)
  | hash on left right ihl ihr => exact (ihl first.left).hashMoved
  | project outputs input ih => exact (ih first).projectMoved outputs

/-! ### What was opened -/

section

variable {store : Store} {on : Predicate} {left right : Operator} {l m : Layout}

theorem exists_of_acquire_scan {r : Schema} {filter : List Predicate} {c first : Option Cursor}
    (h : (scan r filter).acquire store c l = (.ok (), first, m)) :
    ∃ id, store.openTable r.name = .ok id ∧ first = some (.start r.name id) := by
  have h := (acquire_scan c).symm.trans h
  rw [Store.cursor] at h
  cases hid : store.openTable r.name with
  | error e =>
    rw [hid] at h
    cases h
  | ok id =>
    rw [hid] at h
    cases h
    exact ⟨id, rfl, rfl⟩

theorem exists_of_acquire_nestedLoop {s first : (nestedLoop on left right).State}
    (h : (nestedLoop on left right).acquire store s l = (.ok (), first, m)) :
    ∃ t k u, left.acquire store s.left l = (.ok (), t, k)
      ∧ right.acquire store s.right k = (.ok (), u, m)
      ∧ first = { s with left := t, right := u } := by
  rw [acquire_nestedLoop] at h
  generalize left.acquire store s.left l = opened at h
  obtain ⟨_ | _, t, k⟩ := opened
  · cases h
  · dsimp only at h
    generalize hr : right.acquire store s.right k = opened at h
    obtain ⟨answer, u, i⟩ := opened
    cases h
    exact ⟨t, k, u, rfl, hr, rfl⟩

theorem exists_of_acquire_hash {s first : (hash on left right).State}
    (h : (hash on left right).acquire store s l = (.ok (), first, m)) :
    ∃ t k u i buckets v, left.acquire store s.left l = (.ok (), t, k)
      ∧ right.acquire store s.right k = (.ok (), u, i)
      ∧ (right.source store).collect on.right [] u i = (.ok (), buckets, v, m)
      ∧ first = { s with left := t, right := v, buckets } := by
  rw [acquire_hash] at h
  generalize left.acquire store s.left l = opened at h
  obtain ⟨_ | _, t, k⟩ := opened
  · cases h
  · dsimp only at h
    generalize hr : right.acquire store s.right k = opened at h
    obtain ⟨_ | _, u, i⟩ := opened
    · cases h
    · dsimp only at h
      generalize hc : (right.source store).collect on.right [] u i = collected at h
      obtain ⟨answer, buckets, v, j⟩ := collected
      cases h
      exact ⟨t, k, u, i, buckets, v, rfl, hr, hc, rfl⟩

end

/-- A run that is opened for the first time begins at the start of its tables. -/
theorem movedOn_acquire {op : Operator} {store : Store} {l m : Layout} {first : op.State}
    (h : op.acquire store op.initial l = (.ok (), first, m)) : op.MovedOn first first := by
  induction op generalizing l m with
  | scan r filter =>
    obtain ⟨id, -, rfl⟩ := exists_of_acquire_scan h
    exact ⟨.start r.name id, rfl, rfl⟩
  | nestedLoop on left right ihl ihr =>
    obtain ⟨t, k, u, hl, hr, rfl⟩ := exists_of_acquire_nestedLoop h
    exact ⟨ihl hl, ihr hr, rfl, rfl⟩
  | hash on left right ihl ihr =>
    obtain ⟨t, k, u, i, buckets, v, hl, -, -, rfl⟩ := exists_of_acquire_hash h
    exact ⟨ihl hl, rfl, rfl, rfl, rfl⟩
  | project outputs input ih => exact ih h

/-- What can be restarted goes back to the first state. -/
theorem restart_of_movedOn (store : Store) {op : Operator} (hop : op.restartable = true)
    {first s : op.State} (h : op.MovedOn first s) :
    (op.source store).restart s = (.ok (), first) := by
  induction op with
  | scan r filter =>
    obtain ⟨c, rfl, rfl⟩ := h
    rfl
  | nestedLoop on left right ihl ihr =>
    obtain ⟨hl, hr⟩ : left.restartable = true ∧ right.restartable = true := by
      simpa [restartable] using hop
    obtain ⟨firstLeft, firstRight, held, exhausted⟩ := first
    obtain ⟨hleft, hright, rfl, rfl⟩ := h
    simp only [source, Source.nestedLoop, ihl hl hleft, ihr hr hright]
    rfl
  | hash on left right ihl ihr =>
    obtain ⟨firstLeft, firstRight, buckets, pending, exhausted⟩ := first
    obtain ⟨t, u, b, p, e⟩ := s
    obtain ⟨hleft, rfl, rfl, rfl, rfl⟩ := h
    simp only [source, Source.hash, ihl hop hleft]
    rfl
  | project outputs input ih => cases hop

/-- The right input of every nested loop can be restarted. -/
def Sound : Operator → Prop
  | scan _ _ => True
  | nestedLoop _ left right => left.Sound ∧ right.restartable = true
  | hash _ left _ => left.Sound
  | project _ _ => True

theorem sound_of_ofPlan {p : Plan} {op : Operator} (h : ofPlan p = .ok op) : op.Sound := by
  induction p generalizing op with
  | scan r filter =>
    cases h
    trivial
  | join strategy on left right ihl ihr =>
    obtain ⟨l, hl, h⟩ := exists_of_bind_eq_ok h
    obtain ⟨r, hr, h⟩ := exists_of_bind_eq_ok h
    have hleft : l.Sound := ihl hl
    cases strategy with
    | hash =>
      cases h
      exact hleft
    | nestedLoop =>
      dsimp only at h
      split at h
      · rename_i hrestartable
        cases h
        exact ⟨hleft, hrestartable⟩
      · cases h
  | project outputs input ih =>
    obtain ⟨i, hi, h⟩ := exists_of_bind_eq_ok h
    cases h
    trivial
  | create | drop | showTables | insert | explain => cases h

/-- What cannot be restarted says so and stays as it is. -/
theorem restart_of_not_restartable (store : Store) {op : Operator} (hop : op.Sound)
    (h : op.restartable = false) (s : op.State) :
    (op.source store).restart s = (.error .projectionNotRestartable, s) := by
  induction op with
  | scan r filter => cases h
  | nestedLoop on left right ihl ihr =>
    have hl : left.restartable = false := by simpa [restartable, hop.2] using h
    simp only [source, Source.nestedLoop, ihl hop.1 hl]
    rfl
  | hash on left right ihl ihr =>
    simp only [source, Source.hash, ihl hop h]
    rfl
  | project outputs input ih => rfl

/-- The states that calls for rows and restarts lead to from a first one over a store that is not
written. Others may read it meanwhile, so that each call finds a layout of its own. -/
inductive UsedOn (store : Store) (op : Operator) (first : op.State) : op.State → Prop
  | opened : UsedOn store op first first
  | asked {s : op.State} (h : UsedOn store op first s) (l : Layout) :
    UsedOn store op first ((op.source store).next s l).2.1
  | restarted {s : op.State} (h : UsedOn store op first s) :
    UsedOn store op first ((op.source store).restart s).2

theorem UsedOn.movedOn {store : Store} {op : Operator} {first s : op.State}
    (h : op.UsedOn store first s) (hfirst : op.MovedOn first first) : op.MovedOn first s := by
  induction h with
  | opened => exact hfirst
  | asked _ l ih => exact ((keeps_movedOn store op first).next ih rfl).1
  | restarted _ ih => exact (keeps_movedOn store op first).restart ih

/-- Runs that are opened on one store answer alike, however often others read in between. -/
theorem answers_of_opened {store : Store} {op : Operator} {l m : Layout} {first : op.State}
    (h : op.acquire store op.initial l = (.ok (), first, m)) (l' : Layout) :
    ∃ new m', op.acquire store op.initial l' = (.ok (), new, m') ∧ ∀ calls k,
      (op.source store).answers calls first k = (op.source store).answers calls new m' := by
  have hsame : ∀ r ∈ op.plan.scans, store.SameRecords store r.name := fun _ _ => rfl
  obtain ⟨new, m', hnew, halike⟩ :=
    alike_acquire hsame (statesAlike_initial store store op) h l'
  refine ⟨new, m', hnew, fun calls k => ?_⟩
  exact ((alike store store op).answers calls halike k m').symm

/-- A run that was opened and then only `UsedOn` the same store can be restarted exactly if the
operator is `restartable`. It is then in its first state, with the `answers` of a new run, and stays
as it is otherwise. -/
theorem restart_of_opened {p : Plan} {op : Operator} (hop : ofPlan p = .ok op) {store : Store}
    {l m : Layout} {first s : op.State}
    (hopened : op.acquire store op.initial l = (.ok (), first, m))
    (hused : op.UsedOn store first s) :
    ((∃ t, (op.source store).restart s = (.ok (), t)) ↔ op.restartable = true)
      ∧ (∀ t, (op.source store).restart s = (.ok (), t) →
        t = first ∧ ∀ l', ∃ new m', op.acquire store op.initial l' = (.ok (), new, m')
          ∧ ∀ calls k, (op.source store).answers calls t k
            = (op.source store).answers calls new m')
      ∧ ∀ e t, (op.source store).restart s = (.error e, t) → t = s := by
  have hmoved : op.MovedOn first s := hused.movedOn (movedOn_acquire hopened)
  cases hrestartable : op.restartable with
  | true =>
    have hback := restart_of_movedOn store hrestartable hmoved
    rw [hback]
    refine ⟨iff_of_true ⟨first, rfl⟩ rfl, ?_, nofun⟩
    rintro _ ⟨⟩
    exact ⟨rfl, answers_of_opened hopened⟩
  | false =>
    have hstays := restart_of_not_restartable store (sound_of_ofPlan hop) hrestartable s
    rw [hstays]
    refine ⟨iff_of_false nofun nofun, nofun, ?_⟩
    rintro _ _ ⟨⟩
    rfl

/-- A nested loop over two relations, for the numbers in both of them. -/
def sharedNumbers : Operator :=
  .nestedLoop ⟨.number "a", .number "b"⟩ (.scan (.numbers "a") []) (.scan (.numbers "b") [])

theorem joinable_sharedNumbers : sharedNumbers.plan.Joinable :=
  (composed_commonNumbers .nestedLoop).1

theorem served_sharedNumbers : Served sevens sharedNumbers.plan :=
  ⟨(served_commonNumbers .nestedLoop).serves, (served_commonNumbers .nestedLoop).distinct⟩

/-- With the first row the loop holds a left row and stands behind a right one; it goes back. -/
theorem restart_sharedNumbers :
    ofPlan sharedNumbers.plan = .ok sharedNumbers
      ∧ ∃ first m, sharedNumbers.acquire sevens sharedNumbers.initial .empty = (.ok (), first, m)
        ∧ ∃ row s k, (sharedNumbers.source sevens).next first m = (.ok (some row), s, k)
          ∧ sharedNumbers.UsedOn sevens first s
          ∧ (sharedNumbers.source sevens).restart s = (.ok (), first) := by
  have hop : ofPlan sharedNumbers.plan = .ok sharedNumbers := rfl
  have hjoinable : sharedNumbers.plan.Joinable := (composed_commonNumbers .nestedLoop).1
  have hserved : Served sevens sharedNumbers.plan :=
    ⟨(served_commonNumbers .nestedLoop).serves, (served_commonNumbers .nestedLoop).distinct⟩
  obtain ⟨first, m, hopened, hready, hahead⟩ := acquire_of_joinable hjoinable hserved .empty
  obtain ⟨s, k, hnext, -⟩ := (hands_of_joinable hjoinable hserved).next m hready
  rw [hahead] at hnext
  have hused : sharedNumbers.UsedOn sevens first s := by
    have hopen : sharedNumbers.UsedOn sevens first first := .opened
    have hasked := hopen.asked m
    rwa [hnext] at hasked
  obtain ⟨hsucceeds, hanew, -⟩ := restart_of_opened hop hopened hused
  obtain ⟨t, ht⟩ := hsucceeds.2 rfl
  obtain ⟨rfl, -⟩ := hanew t ht
  exact ⟨hop, t, m, hopened, _, s, k, hnext, hused, ht⟩

/-! ## Releases -/

/-- What can be asked of a run. -/
inductive Call where
  | acquire
  | next
  | restart
  | release

inductive Reply where
  | done (answer : Except Error Unit)
  | row (answer : Except Error (Option Row))

/-- One call on a run over a store: what it replies, the run then, and the layout then. -/
def call (op : Operator) (store : Store) (s : op.State) : Call → Reply × op.State × Layout
  | .acquire =>
    match op.acquire store s store.layout with
    | (answer, t, l) => (.done answer, t, l)
  | .next =>
    match (op.source store).next s store.layout with
    | (answer, t, l) => (.row answer, t, l)
  | .restart =>
    match (op.source store).restart s with
    | (answer, t) => (.done answer, t, store.layout)
  | .release =>
    match op.close s with
    | (answer, t) => (.done answer, t, store.layout)

/-- The run after a history of calls. Each finds a store of its own, as anything may happen to the
store in between. -/
def stateAfter (op : Operator) (history : List (Store × Call)) (s : op.State) : op.State :=
  history.foldl (fun s asked => (op.call asked.1 s asked.2).2.1) s

/-- What the calls of a history reply, each with the layout that it leaves. -/
def replies (op : Operator) : List (Store × Call) → op.State → List (Reply × Layout)
  | [], _ => []
  | (store, c) :: history, s =>
    match op.call store s c with
    | (reply, t, l) => (reply, l) :: op.replies history t

theorem replies_append (op : Operator) (before after : List (Store × Call)) (s : op.State) :
    op.replies (before ++ after) s
      = op.replies before s ++ op.replies after (op.stateAfter before s) := by
  induction before generalizing s with
  | nil => rfl
  | cons asked before ih => exact congrArg (_ :: ·) (ih _)

/-- The cursors that the scans of a run hold. -/
def cursors : (op : Operator) → op.State → List Cursor
  | scan _ _, c => Option.toList c
  | nestedLoop _ left right, s => left.cursors s.left ++ right.cursors s.right
  | hash _ left right, s => left.cursors s.left ++ right.cursors s.right
  | project _ input, s => input.cursors s

theorem cursors_initial (op : Operator) : op.cursors op.initial = [] := by
  induction op with
  | scan => rfl
  | nestedLoop on left right ihl ihr | hash on left right ihl ihr =>
    simp only [cursors, initial, ihl, ihr, List.append_nil]
  | project outputs input ih => exact ih

/-- After any history on any stores `close` succeeds and leaves the run `initial`, with no
`cursors`, and all later `replies` are those of a new run. -/
theorem replies_release (op : Operator) (before after : List (Store × Call)) (store : Store) :
    op.close (op.stateAfter before op.initial) = (.ok (), op.initial)
      ∧ op.cursors (op.stateAfter (before ++ [(store, .release)]) op.initial) = []
      ∧ op.replies (before ++ (store, .release) :: after) op.initial
        = op.replies before op.initial
          ++ (.done (.ok ()), store.layout) :: op.replies after op.initial := by
  have hclosed : op.close (op.stateAfter before op.initial) = (.ok (), op.initial) := by
    rw [close_eq_release, release_eq_initial]
  refine ⟨hclosed, ?_, ?_⟩
  · rw [stateAfter, List.foldl_append, List.foldl_cons, List.foldl_nil]
    show op.cursors (op.close (op.stateAfter before op.initial)).2 = []
    rw [hclosed]
    exact cursors_initial op
  · rw [replies_append, replies, call, hclosed]

end Operator

end RelQuery
