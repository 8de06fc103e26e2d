/-
  Operators under calls in any order: whatever was opened, read, restarted, released or left half
  done before, and whatever became of the store between two calls, a row that is handed out
  satisfies every predicate of the plan, and a projected row shows such a row.

  Between calls a run remembers rows: the left row it is at, the buckets of a right input, the
  pairs that wait. Each was tested when it was read, and what was tested is a fact on the row
  itself, which no later change of the store can undo. So it is enough to keep these facts
  (`Operator.Checked`), and none on cursors is needed.

  Main statement: `Operator.Reached.allows_next`.
-/
import RelQuery.Proofs.Operator.Drain
import RelQuery.Proofs.Row

namespace RelQuery

open Store (Layout)

/-! ## Sources whose rows are checked -/

namespace Source

/-- A good state is left behind, and a row that is handed out is fit. -/
def Fine {σ : Type} (good : σ → Prop) (fit : Row → Prop) (a : Answer (σ × Layout) (Option Row)) :
    Prop :=
  good a.2.1 ∧ ∀ row, a.1 = .ok (some row) → fit row

/-- From good states the source leads to good states, whatever it answers, and every row that it
hands out is fit. -/
structure Keeps {σ : Type} (S : Source σ) (good : σ → Prop) (fit : Row → Prop) : Prop where
  next : ∀ {s l answer t m}, good s → S.next s l = (answer, t, m) →
    good t ∧ ∀ row, answer = .ok (some row) → fit row
  restart : ∀ {s}, good s → good (S.restart s).2

variable {σ τ : Type} {L : Source σ} {R : Source τ} {goodL : σ → Prop} {goodR : τ → Prop}
  {fitL fitR : Row → Prop} {on : Predicate} {l : Layout}

theorem Keeps.mono {good : σ → Prop} {fit fit' : Row → Prop} {S : Source σ} (h : S.Keeps good fit)
    (hfit : ∀ row, fit row → fit' row) : S.Keeps good fit' where
  next hs hn := ⟨(h.next hs hn).1, fun row hrow => hfit row ((h.next hs hn).2 row hrow)⟩
  restart := h.restart

theorem meets_of_satisfies {row : Row} {filter : List Predicate}
    (h : satisfies row filter = .ok true) : row.Meets filter := by
  induction filter with
  | nil => simp [Row.Meets]
  | cons p ps ih =>
    rw [satisfies] at h
    split at h
    · rename_i hp
      exact List.forall_mem_cons.2 ⟨hp, ih h⟩
    · cases h
    · cases h

/-- Only rows that pass the filter are found. -/
theorem meets_of_matchVerdict {relation : Schema} {filter : List Predicate}
    {entry : Bytes × Bytes} {row : Row}
    (h : matchVerdict relation filter entry = some (.ok row)) : row.Meets filter := by
  unfold matchVerdict at h
  split at h
  · cases h
  · split at h
    · cases h
    · rename_i hs
      cases h
      exact meets_of_satisfies hs
    · cases h

theorem meets_of_firstMatch {store : Store} {relation : Schema} {filter : List Predicate}
    {c d : Store.Cursor} {m : Layout} {row : Row}
    (h : firstMatch store relation filter c l = (.ok (some row), d, m)) : row.Meets filter := by
  refine Loop.run_leads h (fun _ => True)
    (fun a => ∀ row, a.1 = .ok (some row) → row.Meets filter) trivial (fun s _ => ?_) row rfl
  refine searchRound_leads (fun _ _ _ _ => nofun) (fun _ _ _ => nofun) ?found
    fun _ _ _ _ _ => trivial
  rintro e d l (_ | row) _ hv _ ⟨⟩
  exact meets_of_matchVerdict hv

theorem Keeps.scan (store : Store) (r : Schema) (filter : List Predicate) :
    (Source.scan store r filter).Keeps (fun _ => True) (·.Meets filter) where
  next := by
    intro s l answer t m _ h
    refine ⟨trivial, ?_⟩
    rintro row rfl
    cases s with
    | none => cases h
    | some c =>
      obtain ⟨d, -, hm⟩ := exists_of_next_scan h
      exact meets_of_firstMatch hm
  restart _ := trivial

/-- The row combines a fit left row with a fit right one, and the predicate holds between them. -/
def Joins (on : Predicate) (fitL fitR : Row → Prop) (joined : Row) : Prop :=
  ∃ l r, fitL l ∧ fitR r ∧ on.holdsBetween l r = .ok true ∧ l.combine r = .ok joined

/-- What two fit rows that match are combined into joins them. -/
theorem joins_of_combine {left right joined : Row} (hl : fitL left) (hr : fitR right)
    (hon : on.holdsBetween left right = .ok true)
    (h : (left.combine right).map some = .ok (some joined)) : Joins on fitL fitR joined := by
  cases hc : left.combine right with
  | error e =>
    rw [hc] at h
    cases h
  | ok row =>
    rw [hc] at h
    cases h
    exact ⟨left, right, hl, hr, hon, hc⟩

/-! ### Nested loops -/

/-- The inputs are good, and the left row at hand is fit. -/
structure LoopKept (goodL : σ → Prop) (goodR : τ → Prop) (fitL : Row → Prop)
    (s : LoopState σ τ) : Prop where
  left : goodL s.left
  right : goodR s.right
  held : ∀ row ∈ s.held, fitL row

theorem fine_error {good : σ → Prop} {fit : Row → Prop} {s : σ} (e : Error) (h : good s) :
    Fine good fit (.error e, s, l) :=
  ⟨h, nofun⟩

theorem fine_none {good : σ → Prop} {fit : Row → Prop} {s : σ} (h : good s) :
    Fine good fit (.ok none, s, l) :=
  ⟨h, nofun⟩

theorem fine_some {good : σ → Prop} {fit : Row → Prop} {s : σ} {row : Row} (h : good s)
    (hrow : fit row) : Fine good fit (.ok (some row), s, l) :=
  ⟨h, fun _ heq => by cases heq; exact hrow⟩

/-- The verdict on a fit row that matches is a row that joins. -/
theorem joins_of_joinVerdict {left right : Row} (hl : fitL left) (hr : fitR right)
    {answer : Except Error Row} (h : joinVerdict on left right = some answer) {joined : Row}
    (hanswer : answer = .ok joined) : Joins on fitL fitR joined := by
  unfold joinVerdict at h
  split at h
  · cases h
    cases hanswer
  · rename_i hon
    cases h
    exact ⟨left, right, hl, hr, hon, hanswer⟩
  · cases h

theorem Keeps.probe (hR : R.Keeps goodR fitR) {row : Row} (hrow : fitL row) {t u : τ} {m : Layout}
    {answer : Except Error (Option Row)} (ht : goodR t) (h : R.probe on row t l = (answer, u, m)) :
    goodR u ∧ ∀ joined, answer = .ok (some joined) → Joins on fitL fitR joined := by
  refine Loop.run_leads h (fun s => goodR s.1) (Fine goodR (Joins on fitL fitR)) ht
    fun s hs => ?_
  refine searchRound_leads ?failed ?last ?found ?again
  case failed => exact fun e t l hn => fine_error e (hR.next hs hn).1
  case last => exact fun t l hn => fine_none (hR.next hs hn).1
  case found =>
    intro r t l answer hn hv
    obtain ⟨ht, hfit⟩ := hR.next hs hn
    cases answer with
    | error e => exact fine_error e ht
    | ok joined => exact fine_some ht (joins_of_joinVerdict hrow (hfit r rfl) hv rfl)
  case again => exact fun r t l hn _ => (hR.next hs hn).1

theorem Keeps.sweep (hR : R.Keeps goodR fitR) {row : Row} (hrow : fitL row) {t u : τ} {m : Layout}
    {answer : Except Error (Option Row)} (ht : goodR t) (h : R.sweep on row t l = (answer, u, m)) :
    goodR u ∧ ∀ joined, answer = .ok (some joined) → Joins on fitL fitR joined := by
  obtain hp | ⟨v, back, hp, hr, rfl⟩ := sweep_cases h
  · exact hR.probe hrow ht hp
  · have hu : goodR (R.restart v).2 := hR.restart (hR.probe hrow ht hp).1
    rw [hr] at hu
    refine ⟨hu, fun joined hjoined => ?_⟩
    cases back <;> cases hjoined

/-- What a sweep comes to leaves a kept state, and a row it hands out joins. -/
theorem leads_of_sweep {left : σ} {row : Row} (hleft : goodL left) (hrow : fitL row)
    {answer : Except Error (Option Row)} {t : τ} {m : Layout}
    (hswept : goodR t ∧ ∀ joined, answer = .ok (some joined) → Joins on fitL fitR joined) :
    (heldRound left row (answer, t, m)).Leads (fun u => goodL u.1 ∧ goodR u.2.1)
      (Fine (LoopKept goodL goodR fitL) (Joins on fitL fitR)) := by
  obtain ⟨ht, hjoins⟩ := hswept
  refine heldRound_leads ?failed ?joined ?last
  case failed => exact fun e _ => fine_error e ⟨hleft, ht, nofun⟩
  case joined =>
    intro joined hanswer
    exact fine_some ⟨hleft, ht, by simpa using hrow⟩ (hjoins joined hanswer)
  case last => exact fun _ => ⟨hleft, ht⟩

theorem Keeps.pull (hL : L.Keeps goodL fitL) (hR : R.Keeps goodR fitR) {s : σ} {t : τ}
    {u : LoopState σ τ} {m : Layout} {answer : Except Error (Option Row)} (hs : goodL s)
    (ht : goodR t) (h : Source.pull L R on s t l = (answer, u, m)) :
    LoopKept goodL goodR fitL u
      ∧ ∀ joined, answer = .ok (some joined) → Joins on fitL fitR joined := by
  refine Loop.run_leads h (fun v => goodL v.1 ∧ goodR v.2.1)
    (Fine (LoopKept goodL goodR fitL) (Joins on fitL fitR)) ⟨hs, ht⟩ ?_
  rintro ⟨s, t, l⟩ ⟨hs, ht⟩
  refine pullRound_leads ?failed ?last ?swept
  case failed => exact fun e s' m hn => fine_error e ⟨(hL.next hs hn).1, ht, nofun⟩
  case last => exact fun s' m hn => fine_none ⟨(hL.next hs hn).1, ht, nofun⟩
  case swept =>
    intro row s' m answer t' k hn hsweep
    obtain ⟨hs', hfit⟩ := hL.next hs hn
    have hrow : fitL row := hfit row rfl
    exact leads_of_sweep hs' hrow (hR.sweep hrow ht hsweep)

theorem Keeps.nestedLoop (hL : L.Keeps goodL fitL) (hR : R.Keeps goodR fitR) :
    (Source.nestedLoop L R on).Keeps (LoopKept goodL goodR fitL) (Joins on fitL fitR) where
  next := by
    intro s l answer u m hs h
    refine nextJoined_leads h (Fine (LoopKept goodL goodR fitL) (Joins on fitL fitR)) ?_ ?_ ?_
    · exact fun _ => fine_none hs
    · exact fun _ => hL.pull hR hs.left hs.right rfl
    · intro row answer t k hheld hsweep
      have hrow : fitL row := hs.held row hheld
      have hround := leads_of_sweep (m := k) hs.left hrow (hR.sweep hrow hs.right hsweep)
      exact hround.mono (fun v hv => hL.pull hR hv.1 hv.2 rfl) fun _ ha => ha
  restart := by
    intro s hs
    have hleft : goodL (L.restart s.left).2 := hL.restart hs.left
    have hright : goodR (R.restart s.right).2 := hR.restart hs.right
    simp only [Source.nestedLoop]
    split
    · rename_i hl
      rw [hl] at hleft
      exact ⟨hleft, hs.right, hs.held⟩
    · rename_i hl
      rw [hl] at hleft
      split
      · rename_i hr
        rw [hr] at hright
        exact ⟨hleft, hright, hs.held⟩
      · rename_i hr
        rw [hr] at hright
        exact ⟨hleft, hright, by simp⟩

/-! ### Hash tables -/

/-- A bucket's row is fit and stands under its key. -/
def Filed (key : Term) (fitR : Row → Prop) (b : Datum × Row) : Prop :=
  fitR b.2 ∧ key.value b.2 = .ok b.1

/-- The inputs are good, the buckets hold fit rows under their keys, and the predicate holds
between the rows of each pair that waits. -/
structure HashKept (goodL : σ → Prop) (goodR : τ → Prop) (fitL fitR : Row → Prop)
    (on : Predicate) (s : HashState σ τ) : Prop where
  left : goodL s.left
  right : goodR s.right
  buckets : ∀ b ∈ s.buckets, Filed on.right fitR b
  pending : ∀ p ∈ s.pending, fitL p.1 ∧ fitR p.2 ∧ on.holdsBetween p.1 p.2 = .ok true

/-- However reading the right input ends, what was put into buckets stands under its key. -/
theorem Keeps.collect (hR : R.Keeps goodR fitR) {key : Term} {buckets filled : List (Datum × Row)}
    {t u : τ} {m : Layout} {answer : Except Error Unit} (ht : goodR t)
    (hb : ∀ b ∈ buckets, Filed key fitR b)
    (h : R.collect key buckets t l = (answer, filled, u, m)) :
    goodR u ∧ ∀ b ∈ filled, Filed key fitR b := by
  refine Loop.run_leads h (fun s => goodR s.2.1 ∧ ∀ b ∈ s.1, Filed key fitR b)
    (fun a => goodR a.2.2.1 ∧ ∀ b ∈ a.2.1, Filed key fitR b) ⟨ht, hb⟩ ?_
  rintro ⟨buckets, t, l⟩ ⟨ht, hb⟩
  refine collectRound_leads ?done ?again
  case done => exact fun _ u m _ hn => ⟨(hR.next ht hn).1, hb⟩
  case again =>
    intro row u m k hn hk
    obtain ⟨hu, hfit⟩ := hR.next ht hn
    refine ⟨hu, fun b hmem => ?_⟩
    rcases List.mem_append.1 hmem with hmem | hmem
    · exact hb b hmem
    · cases List.mem_singleton.1 hmem
      exact ⟨hfit row rfl, hk⟩

/-- Every right row in the bucket that a left row looks up joins with it. -/
theorem pairs_of_bucket {buckets : List (Datum × Row)} (hb : ∀ b ∈ buckets, Filed on.right fitR b)
    {row : Row} (hrow : fitL row) {key : Datum} (hkey : on.left.value row = .ok key) :
    ∀ p ∈ (bucket buckets key).map (row, ·),
      fitL p.1 ∧ fitR p.2 ∧ on.holdsBetween p.1 p.2 = .ok true := by
  intro p hp
  obtain ⟨r, hr, rfl⟩ := List.mem_map.1 hp
  obtain ⟨b, hmem, rfl⟩ := List.mem_map.1 hr
  obtain ⟨hmem, hsame⟩ := List.mem_filter.1 hmem
  have hsame : b.1 = key := of_decide_eq_true hsame
  obtain ⟨hfit, hvalue⟩ := hb b hmem
  refine ⟨hrow, hfit, ?_⟩
  rw [Predicate.holdsBetween_eq_ok_iff]
  exact ⟨key, b.1, hkey, hvalue, decide_eq_true hsame.symm⟩

theorem Keeps.nextPaired (hL : L.Keeps goodL fitL) {s u : HashState σ τ} {m : Layout}
    {answer : Except Error (Option Row)} (hs : HashKept goodL goodR fitL fitR on s)
    (h : Source.nextPaired L on s l = (answer, u, m)) :
    HashKept goodL goodR fitL fitR on u
      ∧ ∀ joined, answer = .ok (some joined) → Joins on fitL fitR joined := by
  refine Loop.run_leads h (fun v => HashKept goodL goodR fitL fitR on v.1)
    (Fine (HashKept goodL goodR fitL fitR on) (Joins on fitL fitR)) hs ?_
  rintro ⟨s, l⟩ hs
  refine pairRound_leads ?pending ?exhausted ?failed ?last ?again
  case pending =>
    intro row r pending hp
    have hpending := hs.pending
    rw [hp] at hpending
    obtain ⟨⟨hfitL, hfitR, hon⟩, hrest⟩ := List.forall_mem_cons.1 hpending
    exact ⟨⟨hs.left, hs.right, hs.buckets, hrest⟩, fun joined => joins_of_combine hfitL hfitR hon⟩
  case exhausted => exact fun _ _ => fine_none hs
  case failed =>
    intro e found left m _ hn
    exact fine_error e ⟨(hL.next hs.left hn).1, hs.right, hs.buckets, hs.pending⟩
  case last =>
    intro left m _ hn
    exact fine_none ⟨(hL.next hs.left hn).1, hs.right, hs.buckets, hs.pending⟩
  case again =>
    intro row left m key _ hn hkey
    obtain ⟨hleft, hfit⟩ := hL.next hs.left hn
    exact ⟨hleft, hs.right, hs.buckets, pairs_of_bucket hs.buckets (hfit row rfl) hkey⟩

theorem Keeps.hash (hL : L.Keeps goodL fitL) :
    (Source.hash (τ := τ) L on).Keeps (HashKept goodL goodR fitL fitR on)
      (Joins on fitL fitR) where
  next hs h := hL.nextPaired hs h
  restart := by
    intro s hs
    have hleft : goodL (L.restart s.left).2 := hL.restart hs.left
    simp only [Source.hash]
    split
    · rename_i hl
      rw [hl] at hleft
      exact ⟨hleft, hs.right, hs.buckets, hs.pending⟩
    · rename_i hl
      rw [hl] at hleft
      exact ⟨hleft, hs.right, hs.buckets, by simp⟩

/-! ### Projections -/

/-- The row is the values of the outputs on a fit one. -/
def Shows (outputs : List Term) (fit : Row → Prop) (row : Row) : Prop :=
  ∃ input values, fit input ∧ valuesOf outputs input = .ok values ∧ row = .projected values

theorem Keeps.project {good : σ → Prop} {fit : Row → Prop} {outputs : List Term}
    (hL : L.Keeps good fit) : (Source.project L outputs).Keeps good (Shows outputs fit) where
  next := by
    intro s l answer t m hs h
    obtain ⟨found, hn, rfl⟩ := exists_of_next_project h
    obtain ⟨ht, hfit⟩ := hL.next hs hn
    refine ⟨ht, fun row hrow => ?_⟩
    rcases found with e | _ | input
    · cases hrow
    · cases hrow
    · dsimp only at hrow
      cases hv : valuesOf outputs input with
      | error e => rw [hv] at hrow; cases hrow
      | ok values =>
        rw [hv] at hrow
        cases hrow
        exact ⟨input, values, hfit input rfl, hv, rfl⟩
  restart hs := hs

end Source

/-! ## Rows that a plan allows -/

namespace Plan

/-- The rows that may be handed out for a plan: those on which every predicate of its scans and
joins holds, and for a projection the values of its outputs on such a row of its input. -/
def Allows : Plan → Row → Prop
  | project outputs input => Source.Shows outputs input.Allows
  | p => fun row => row.Meets p.tests

theorem Allows.meets {p : Plan} {row : Row} (h : p.Allows row) : row.Meets p.tests := by
  cases p with
  | project => simp [Row.Meets, tests]
  | scan | join | create | drop | showTables | insert | explain => exact h

/-- Joins of rows that the sides allow are allowed. -/
theorem allows_of_joins {strategy : JoinStrategy} {on : Predicate} {left right : Plan} {row : Row}
    (h : Source.Joins on left.Allows right.Allows row) :
    (join strategy on left right).Allows row := by
  obtain ⟨l, r, hl, hr, hon, hc⟩ := h
  exact hl.meets.combine hr.meets hon hc

end Plan

namespace Operator

/-- Operators carry out the plan that they were made of. -/
theorem plan_of_ofPlan {p : Plan} {op : Operator} (h : ofPlan p = .ok op) : op.plan = p := by
  induction p generalizing op with
  | scan r filter =>
    cases h
    rfl
  | join strategy on left right ihl ihr =>
    obtain ⟨l, hl, h⟩ := exists_of_bind_eq_ok h
    obtain ⟨r, hr, h⟩ := exists_of_bind_eq_ok h
    cases strategy with
    | hash =>
      cases h
      rw [plan, ihl hl, ihr hr]
    | nestedLoop =>
      dsimp only at h
      split at h
      · cases h
        rw [plan, ihl hl, ihr hr]
      · cases h
  | project outputs input ih =>
    obtain ⟨i, hi, h⟩ := exists_of_bind_eq_ok h
    cases h
    rw [plan, ih hi]
  | create | drop | showTables | insert | explain => cases h

/-! ## Runs -/

/-- What a run remembers was checked when it was read. -/
def Checked : (op : Operator) → op.State → Prop
  | scan _ _, _ => True
  | nestedLoop _ left right, s => Source.LoopKept left.Checked right.Checked left.plan.Allows s
  | hash on left right, s =>
    Source.HashKept left.Checked right.Checked left.plan.Allows right.plan.Allows on s
  | project _ input, s => input.Checked s

theorem checked_initial (op : Operator) : op.Checked op.initial := by
  induction op with
  | scan => trivial
  | nestedLoop on left right ihl ihr => exact ⟨ihl, ihr, nofun⟩
  | hash on left right ihl ihr => exact ⟨ihl, ihr, nofun, nofun⟩
  | project outputs input ih => exact ih

/-- Being asked for rows and being restarted keeps what is remembered checked, and the rows that
are handed out are allowed. -/
theorem keeps (store : Store) (op : Operator) :
    (op.source store).Keeps op.Checked op.plan.Allows := by
  induction op with
  | scan r filter => exact .scan store r filter
  | nestedLoop on left right ihl ihr =>
    have hkeeps : (Source.nestedLoop (left.source store) (right.source store) on).Keeps
        (Source.LoopKept left.Checked right.Checked left.plan.Allows)
        (Source.Joins on left.plan.Allows right.plan.Allows) := ihl.nestedLoop ihr
    exact hkeeps.mono fun _ => Plan.allows_of_joins
  | hash on left right ihl ihr =>
    have hkeeps : (Source.hash (τ := right.State) (left.source store) on).Keeps
        (Source.HashKept left.Checked right.Checked left.plan.Allows right.plan.Allows on)
        (Source.Joins on left.plan.Allows right.plan.Allows) := ihl.hash
    exact hkeeps.mono fun _ => Plan.allows_of_joins
  | project outputs input ih => exact ih.project

/-- So does opening, also when it fails midway. -/
theorem checked_acquire (store : Store) {op : Operator} {s : op.State} (hs : op.Checked s)
    (l : Layout) : op.Checked (op.acquire store s l).2.1 := by
  induction op generalizing l with
  | scan => trivial
  | nestedLoop on left right ihl ihr =>
    have hleft := ihl hs.left l
    rw [acquire_nestedLoop]
    split
    · rename_i hl
      rw [hl] at hleft
      exact ⟨hleft, hs.right, hs.held⟩
    · rename_i t m hl
      rw [hl] at hleft
      exact ⟨hleft, ihr hs.right m, hs.held⟩
  | hash on left right ihl ihr =>
    have hleft := ihl hs.left l
    rw [acquire_hash]
    split
    · rename_i hl
      rw [hl] at hleft
      exact ⟨hleft, hs.right, hs.buckets, hs.pending⟩
    · rename_i t m hl
      rw [hl] at hleft
      have hright := ihr hs.right m
      split
      · rename_i hr
        rw [hr] at hright
        exact ⟨hleft, hright, hs.buckets, hs.pending⟩
      · rename_i u k hr
        rw [hr] at hright
        have hnone : ∀ b ∈ [], Source.Filed on.right right.plan.Allows b := nofun
        obtain ⟨hu, hbuckets⟩ := (keeps store right).collect (l := k) hright hnone rfl
        exact ⟨hleft, hu, hbuckets, hs.pending⟩
  | project outputs input ih => exact ih hs l

/-- The states that calls lead to from a run that was never opened. The calls come in any order,
whatever they answer, and each finds a store of its own: between two calls anything may be written
and any partition may be removed. -/
inductive Reached (op : Operator) : op.State → Prop
  | initial : Reached op op.initial
  | acquired {s : op.State} (h : Reached op s) (store : Store) (l : Layout) :
    Reached op (op.acquire store s l).2.1
  | asked {s : op.State} (h : Reached op s) (store : Store) (l : Layout) :
    Reached op ((op.source store).next s l).2.1
  | restarted {s : op.State} (h : Reached op s) (store : Store) :
    Reached op ((op.source store).restart s).2
  | released {s : op.State} (h : Reached op s) : Reached op (op.release s)

theorem Reached.checked {op : Operator} {s : op.State} (h : op.Reached s) : op.Checked s := by
  induction h with
  | initial => exact checked_initial op
  | acquired _ store l ih => exact checked_acquire store ih l
  | asked _ store l ih => exact ((keeps store op).next ih rfl).1
  | restarted _ store ih => exact (keeps store op).restart ih
  | released =>
    rw [release_eq_initial]
    exact checked_initial op

/-- In every state that is `Reached` by calls in any order on any stores, a row that is handed out
is one that the plan `Allows`. -/
theorem Reached.allows_next {p : Plan} {op : Operator} (hop : ofPlan p = .ok op) {s t : op.State}
    (hs : op.Reached s) {store : Store} {l m : Layout} {row : Row}
    (h : (op.source store).next s l = (.ok (some row), t, m)) : p.Allows row := by
  obtain rfl := plan_of_ofPlan hop
  exact ((keeps store op).next hs.checked h).2 row rfl

/-- A hash join that first fails to open, as nothing is there, and is released and opened again on
other contents, hands out a number that both relations hold. -/
theorem allows_commonNumbers :
    ∃ op, ofPlan (commonNumbers .hash) = .ok op
      ∧ ∃ s t l m, op.Reached s
        ∧ (op.source sevens).next s l = (.ok (some (.projected [.int 7])), t, m)
        ∧ (commonNumbers .hash).Allows (.projected [.int 7]) := by
  obtain ⟨op, hop, hplan⟩ := ofPlan_of_composed (composed_commonNumbers .hash)
  have hcomposed := composed_commonNumbers .hash
  have hserved := served_commonNumbers .hash
  rw [← hplan] at hcomposed hserved
  have hfailed : op.Reached (op.release (op.acquire .volatile op.initial .empty).2.1) :=
    .released (.acquired .initial .volatile .empty)
  rw [release_eq_initial] at hfailed
  obtain ⟨s, l, hacquire, hready, hahead⟩ := acquire_of_composed hcomposed hserved .empty
  obtain ⟨fit, hands, -⟩ := hands_of_composed hcomposed hserved
  obtain ⟨t, m, hnext, -⟩ := hands.next l hready
  have hrows : op.plan.rows sevens = [.projected [.int 7]] := by
    rw [hplan]
    rfl
  rw [hahead, hrows] at hnext
  have hs : op.Reached s := by
    have h := hfailed.acquired sevens .empty
    rwa [hacquire] at h
  exact ⟨op, hop, s, t, l, m, hs, hnext, hs.allows_next hop hnext⟩

end Operator

end RelQuery
