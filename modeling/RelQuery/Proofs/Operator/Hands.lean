/-
  What sources hand out: as long as its state is good, a source gives the rows that are ahead of
  that state, one a call and in order, and then none.

  Each operator keeps this (`Hands.scan`, `Hands.nestedLoop`, `Hands.hash`, `Hands.project`), with
  what is ahead of a join told by what is ahead of its inputs. A nested loop and a hash join that
  remember as much of the same pairs have the same rows ahead.
-/
import RelQuery.Proofs.Plan.Rows

namespace RelQuery.Source

open Store (Layout)

variable {σ τ : Type}

/-- In good states the source hands out what is ahead, and all of it is fit for its reader. -/
structure Hands (S : Source σ) (good : σ → Prop) (ahead : σ → List Row) (fit : Row → Prop) :
    Prop where
  next : ∀ {s} (l : Layout), good s →
    ∃ t m, S.next s l = (.ok (ahead s).head?, t, m) ∧ good t ∧ ahead t = (ahead s).tail
  fits : ∀ {s row}, good s → row ∈ ahead s → fit row

/-- From every good state the source can go back to all of its rows. -/
def Restarts (S : Source σ) (good : σ → Prop) (ahead : σ → List Row) (all : List Row) : Prop :=
  ∀ s, good s → ∃ t, S.restart s = (.ok (), t) ∧ good t ∧ ahead t = all

/-! ## Calls by what the input answers -/

section Calls

variable {L : Source σ} {R : Source τ} {on : Predicate} {l m : Layout}
  {answer : Except Error (Option Row)}

theorem drain_of_next {α : Type} {f : Row → Except Error α} {s s' : σ}
    (h : L.next s l = (answer, s', m)) : L.drain f s l = match answer with
      | .error e => (.error e, m)
      | .ok none => (.ok [], m)
      | .ok (some row) =>
        match f row with
        | .error e => (.error e, m)
        | .ok a => ((L.drain f s' m).1.map (a :: ·), (L.drain f s' m).2) := by
  rw [drain]
  split <;> rename_i hr <;> rw [h] at hr <;> cases hr <;> rfl

theorem probe_of_next {row : Row} {t t' : τ} (h : R.next t l = (answer, t', m)) :
    R.probe on row t l = (searchRound (joinVerdict on row) (answer, t', m)).finish
      fun u => R.probe on row u.1 u.2 :=
  h ▸ (R.probing on row).run_eq (t, l)

theorem pull_of_next {s s' : σ} {t : τ} (h : L.next s l = (answer, s', m)) :
    pull L R on s t l = match answer with
      | .error e => (.error e, ⟨s', t, none, false⟩, m)
      | .ok none => (.ok none, ⟨s', t, none, true⟩, m)
      | .ok (some row) => (heldRound s' row (R.sweep on row t m)).finish
        fun u => pull L R on u.1 u.2.1 u.2.2 := by
  rw [pull, Loop.run_eq]
  simp only [pulling, pullRound, h]
  rcases answer with e | _ | row <;> rfl

/-- A nested loop that holds a left row sweeps the right input for it. -/
theorem nextJoined_of_sweep {left : σ} {right : τ} {row : Row}
    {swept : Answer (τ × Layout) (Option Row)} (h : R.sweep on row right l = swept) :
    nextJoined L R on ⟨left, right, some row, false⟩ l
      = (heldRound left row swept).finish fun u => pull L R on u.1 u.2.1 u.2.2 := by
  simp only [nextJoined, joinNext, h]
  obtain ⟨_ | _ | joined, t, k⟩ := swept <;> rfl

theorem collect_of_next {key : Term} {buckets : List (Datum × Row)} {t t' : τ}
    (h : R.next t l = (answer, t', m)) : R.collect key buckets t l
      = (collectRound key buckets (answer, t', m)).finish
        fun u => R.collect key u.1 u.2.1 u.2.2 :=
  h ▸ (R.collecting key).run_eq (buckets, t, l)

theorem nextPaired_of_pending {left : σ} {right : τ} {buckets : List (Datum × Row)} {row r : Row}
    {pending : List (Row × Row)} {exhausted : Bool} :
    nextPaired L on ⟨left, right, buckets, (row, r) :: pending, exhausted⟩ l
      = ((row.combine r).map some, ⟨left, right, buckets, pending, exhausted⟩, l) :=
  Loop.run_of_done rfl

theorem nextPaired_of_exhausted {s : HashState σ τ} (hpending : s.pending = [])
    (hexhausted : s.exhausted = true) : nextPaired L on s l = (.ok none, s, l) := by
  obtain ⟨left, right, buckets, pending, exhausted⟩ := s
  obtain rfl : pending = [] := hpending
  obtain rfl : exhausted = true := hexhausted
  exact Loop.run_of_done rfl

/-- A hash join that has no pair left asks its left input. -/
theorem nextPaired_of_next {left left' : σ} {right : τ} {buckets : List (Datum × Row)}
    (h : L.next left l = (answer, left', m)) :
    nextPaired L on ⟨left, right, buckets, [], false⟩ l = match answer with
      | .error e => (.error e, ⟨left', right, buckets, [], false⟩, m)
      | .ok none => (.ok none, ⟨left', right, buckets, [], true⟩, m)
      | .ok (some row) =>
        match on.left.value row with
        | .error e => (.error e, ⟨left', right, buckets, [], false⟩, m)
        | .ok key =>
          nextPaired L on ⟨left', right, buckets, (bucket buckets key).map (row, ·), false⟩ m := by
  rw [nextPaired, Loop.run_eq]
  simp only [pairing, pairRound, h]
  rcases answer with e | _ | row
  · rfl
  · rfl
  · dsimp only [bind]
    cases on.left.value row <;> rfl

/-- A projection asks its input, and shows the outputs on the row that comes. -/
theorem exists_of_next_project {outputs : List Term} {s t : σ}
    (h : (Source.project L outputs).next s l = (answer, t, m)) :
    ∃ found, L.next s l = (found, t, m) ∧ answer = match found with
      | .error e => .error e
      | .ok none => .ok none
      | .ok (some row) => (valuesOf outputs row).map fun vs => some (.projected vs) := by
  have h : projected outputs (L.next s l) = (answer, t, m) := h
  generalize hn : L.next s l = asked at h
  obtain ⟨_ | _ | row, u, k⟩ := asked <;> (cases h; exact ⟨_, rfl, rfl⟩)

end Calls

/-! ## Draining -/

/-- Draining a source puts every row ahead through the function, up to the first failure. -/
theorem Hands.drain {S : Source σ} {good : σ → Prop} {ahead : σ → List Row} {fit : Row → Prop}
    (h : S.Hands good ahead fit) {α : Type} (f : Row → Except Error α) {s : σ} (l : Layout)
    (hs : good s) : (S.drain f s l).1 = (ahead s).mapM f := by
  generalize hrows : ahead s = rows
  induction rows generalizing s l with
  | nil =>
    obtain ⟨t, m, hn, -, -⟩ := h.next l hs
    rw [hrows] at hn
    rw [drain_of_next hn]
    rfl
  | cons row rows ih =>
    obtain ⟨t, m, hn, ht, ha⟩ := h.next l hs
    rw [hrows] at hn ha
    rw [drain_of_next hn, List.mapM_cons]
    dsimp only [List.head?_cons]
    cases hf : f row with
    | error e => rfl
    | ok a =>
      have hd : (S.drain f t m).1 = rows.mapM f := ih m ht ha
      show ((S.drain f t m).1).map (a :: ·) = _
      rw [hd]
      cases rows.mapM f <;> rfl

/-- A source that fails at once cannot be drained. -/
theorem drain_of_error {S : Source σ} {α : Type} (f : Row → Except Error α) {s t : σ}
    {l m : Layout} {e : Error} (h : S.next s l = (.error e, t, m)) :
    (S.drain f s l).1 = .error e := by
  rw [drain_of_next h]

/-! ## Pairs -/

/-- The operands of a predicate have values on two rows, and the rows can be joined. -/
structure Pairs (on : Predicate) (l r : Row) : Prop where
  left : ∃ d, on.left.value l = .ok d
  right : ∃ d, on.right.value r = .ok d
  combine : l.combine r = .ok (l.beside r)

theorem Pairs.holdsBetween {on : Predicate} {l r : Row} (h : Pairs on l r) :
    on.holdsBetween l r = .ok (on.joins l r) := by
  obtain ⟨a, ha⟩ := h.left
  obtain ⟨b, hb⟩ := h.right
  unfold Predicate.holdsBetween Predicate.joins
  rw [ha, hb, Term.read_of_value ha, Term.read_of_value hb]
  simp [bind, Except.bind, pure, Except.pure]

/-- The joins of a left row with those right rows that the predicate holds for. -/
def joinsOf (on : Predicate) (l : Row) (rows : List Row) : List Row :=
  (rows.filter (on.joins l)).map l.beside

theorem joinsOf_cons_of_joins {on : Predicate} {l r : Row} (h : on.joins l r = true)
    (rows : List Row) : joinsOf on l (r :: rows) = l.beside r :: joinsOf on l rows := by
  simp [joinsOf, h]

theorem joinsOf_cons_of_not_joins {on : Predicate} {l r : Row} (h : on.joins l r = false)
    (rows : List Row) : joinsOf on l (r :: rows) = joinsOf on l rows := by
  simp [joinsOf, h]

/-! ## Nested loops -/

section NestedLoop

variable {L : Source σ} {R : Source τ} {goodL : σ → Prop} {aheadL : σ → List Row}
  {fitL : Row → Prop} {goodR : τ → Prop} {aheadR : τ → List Row} {fitR : Row → Prop}
  {on : Predicate} {all : List Row}

/-- What is ahead of a nested loop: what the row at hand still joins with, then what the rows
after it do. -/
def loopAhead (aheadL : σ → List Row) (aheadR : τ → List Row) (on : Predicate) (all : List Row)
    (s : LoopState σ τ) : List Row :=
  if s.exhausted then []
  else (s.held.elim [] fun row => joinsOf on row (aheadR s.right))
    ++ (aheadL s.left).flatMap (joinsOf on · all)

/-- The inputs of a nested loop are good, and the right one is at its start unless a left row is
at hand. -/
structure LoopGood (goodL : σ → Prop) (goodR : τ → Prop) (aheadR : τ → List Row)
    (fitL : Row → Prop) (all : List Row) (s : LoopState σ τ) : Prop where
  left : goodL s.left
  right : goodR s.right
  held : ∀ row ∈ s.held, fitL row
  fresh : s.held = none → aheadR s.right = all

/-- A probe finds the first right row ahead that joins, and leaves those after it ahead. -/
theorem Hands.probe (hR : R.Hands goodR aheadR fitR) {row : Row}
    (hp : ∀ r, fitR r → Pairs on row r) {t : τ} (l : Layout) (ht : goodR t) :
    ∃ u m, R.probe on row t l = (.ok (joinsOf on row (aheadR t)).head?, u, m) ∧ goodR u
      ∧ joinsOf on row (aheadR u) = (joinsOf on row (aheadR t)).tail := by
  generalize hrows : aheadR t = rows
  induction rows generalizing t l with
  | nil =>
    obtain ⟨u, m, hn, hu, ha⟩ := hR.next l ht
    rw [hrows] at hn ha
    refine ⟨u, m, ?_, hu, by rw [ha]; rfl⟩
    rw [probe_of_next hn]
    rfl
  | cons r rows ih =>
    obtain ⟨u, m, hn, hu, ha⟩ := hR.next l ht
    have hpair : Pairs on row r := hp r (hR.fits ht (hrows ▸ List.mem_cons_self))
    rw [hrows] at hn ha
    have hstep : R.probe on row t l
        = if on.joins row r then (.ok (some (row.beside r)), u, m) else R.probe on row u m := by
      rw [probe_of_next hn]
      dsimp only [List.head?_cons, searchRound, joinVerdict]
      rw [hpair.holdsBetween]
      cases on.joins row r with
      | true => simp [hpair.combine, Except.map, Round.finish]
      | false => rfl
    cases hj : on.joins row r with
    | true =>
      rw [hj, if_pos rfl] at hstep
      rw [joinsOf_cons_of_joins hj]
      exact ⟨u, m, hstep, hu, by rw [ha]; rfl⟩
    | false =>
      rw [hj, if_neg Bool.false_ne_true] at hstep
      rw [joinsOf_cons_of_not_joins hj, hstep]
      exact ih m hu ha

/-- A sweep that finds nothing leaves the right input at its start. -/
theorem Hands.sweep (hR : R.Hands goodR aheadR fitR) (hback : R.Restarts goodR aheadR all)
    {row : Row} (hp : ∀ r, fitR r → Pairs on row r) {t : τ} (l : Layout) (ht : goodR t) :
    ∃ u m, R.sweep on row t l = (.ok (joinsOf on row (aheadR t)).head?, u, m) ∧ goodR u
      ∧ (joinsOf on row (aheadR t) = [] → aheadR u = all)
      ∧ (joinsOf on row (aheadR t) ≠ [] →
        joinsOf on row (aheadR u) = (joinsOf on row (aheadR t)).tail) := by
  obtain ⟨u, m, hprobe, hu, ha⟩ := hR.probe hp l ht
  unfold Source.sweep sweptBack
  rw [hprobe]
  cases hj : joinsOf on row (aheadR t) with
  | nil =>
    obtain ⟨v, hv, hgood, hall⟩ := hback u hu
    refine ⟨v, m, ?_, hgood, fun _ => hall, fun h => absurd rfl h⟩
    simp [hv]
  | cons joined rest =>
    rw [hj] at ha
    exact ⟨u, m, rfl, hu, by simp, fun _ => ha⟩

/-- Pulling left rows gives the first join of any of them. -/
theorem Hands.pull (hL : L.Hands goodL aheadL fitL) (hR : R.Hands goodR aheadR fitR)
    (hback : R.Restarts goodR aheadR all) (hp : ∀ l r, fitL l → fitR r → Pairs on l r)
    {s : σ} {t : τ} (l : Layout) (hs : goodL s) (ht : goodR t) (hall : aheadR t = all) :
    ∃ u m, Source.pull L R on s t l
        = (.ok ((aheadL s).flatMap (joinsOf on · all)).head?, u, m)
      ∧ LoopGood goodL goodR aheadR fitL all u
      ∧ loopAhead aheadL aheadR on all u = ((aheadL s).flatMap (joinsOf on · all)).tail := by
  generalize hrows : aheadL s = rows
  induction rows generalizing s t l with
  | nil =>
    obtain ⟨u, m, hn, hu, ha⟩ := hL.next l hs
    rw [hrows] at hn ha
    refine ⟨⟨u, t, none, true⟩, m, ?_, ⟨hu, ht, by simp, fun _ => hall⟩, by simp [loopAhead]⟩
    rw [pull_of_next hn]
    rfl
  | cons row rows ih =>
    obtain ⟨u, m, hn, hu, ha⟩ := hL.next l hs
    have hfit : fitL row := hL.fits hs (hrows ▸ List.mem_cons_self)
    rw [hrows] at hn ha
    obtain ⟨v, k, hsweep, hv, hnone, hsome⟩ := hR.sweep hback (hp row · hfit) m ht
    rw [hall] at hsweep hnone hsome
    rw [List.flatMap_cons]
    cases hj : joinsOf on row all with
    | nil =>
      rw [hj] at hsweep
      obtain ⟨w, i, hpull, hw, hahead⟩ := ih k hu hv (hnone hj) ha
      refine ⟨w, i, ?_, hw, hahead⟩
      rw [pull_of_next hn]
      dsimp only [List.head?_cons]
      rw [hsweep]
      exact hpull
    | cons joined rest =>
      rw [hj] at hsweep hsome
      refine ⟨⟨u, v, some row, false⟩, k, ?_, ⟨hu, hv, by simpa using hfit, by simp⟩, ?_⟩
      · rw [pull_of_next hn]
        dsimp only [List.head?_cons]
        rw [hsweep]
        rfl
      · simp only [loopAhead, Option.elim_some, ha]
        rw [hsome (by simp)]
        rfl

/-- A nested loop hands out, for each left row, its joins with all right rows. -/
theorem Hands.nestedLoop {fit : Row → Prop} (hL : L.Hands goodL aheadL fitL)
    (hR : R.Hands goodR aheadR fitR) (hback : R.Restarts goodR aheadR all)
    (hp : ∀ l r, fitL l → fitR r → Pairs on l r) (hall : ∀ r ∈ all, fitR r)
    (hfit : ∀ l r, fitL l → fitR r → fit (l.beside r)) :
    (Source.nestedLoop L R on).Hands (LoopGood goodL goodR aheadR fitL all)
      (loopAhead aheadL aheadR on all) fit where
  next := by
    intro s l hs
    show ∃ t m, Source.nextJoined L R on s l = _ ∧ _
    obtain ⟨left, right, held, exhausted⟩ := s
    cases exhausted with
    | true => exact ⟨_, l, by simp only [loopAhead]; rfl, hs, by simp [loopAhead]⟩
    | false =>
      cases held with
      | none =>
        obtain ⟨u, m, hpull, hu, ha⟩ := hL.pull hR hback hp l hs.left hs.right (hs.fresh rfl)
        refine ⟨u, m, ?_, hu, ?_⟩
        · simp only [loopAhead]
          exact hpull
        · simpa [loopAhead] using ha
      | some row =>
        have hrow : fitL row := hs.held row rfl
        obtain ⟨u, m, hsweep, hu, hnone, hsome⟩ := hR.sweep hback (hp row · hrow) l hs.right
        rw [nextJoined_of_sweep hsweep]
        cases hj : joinsOf on row (aheadR right) with
        | nil =>
          -- The row at hand is done: the right input is back at its start when the next is pulled.
          obtain ⟨v, k, hpull, hv, ha⟩ := hL.pull hR hback hp m hs.left hu (hnone hj)
          refine ⟨v, k, ?_, hv, ?_⟩
          · simp [loopAhead, hj, heldRound, Round.finish, hpull]
          · simpa [loopAhead, hj] using ha
        | cons joined rest =>
          refine ⟨⟨left, u, some row, false⟩, m, ?_, ⟨hs.left, hu, hs.held, by simp⟩, ?_⟩
          · simp [loopAhead, hj, heldRound, Round.finish]
          · simp only at hsome
            simp [loopAhead, hj, hsome]
  fits := by
    intro s row hs hmem
    have hjoins : ∀ {l rows}, fitL l → (∀ r ∈ rows, fitR r) → row ∈ joinsOf on l rows →
        fit row := by
      intro l rows hl hrows hmem
      obtain ⟨r, hr, rfl⟩ := List.mem_map.1 hmem
      exact hfit l r hl (hrows r (List.mem_filter.1 hr).1)
    unfold loopAhead at hmem
    split at hmem
    · cases hmem
    · rcases List.mem_append.1 hmem with hmem | hmem
      · cases hheld : s.held with
        | none => rw [hheld] at hmem; cases hmem
        | some l =>
          rw [hheld] at hmem
          exact hjoins (hs.held l hheld) (fun r hr => hR.fits hs.right hr) hmem
      · obtain ⟨l, hl, hmem⟩ := List.mem_flatMap.1 hmem
        exact hjoins (hL.fits hs.left hl) hall hmem

theorem Restarts.nestedLoop {allL : List Row} (hL : L.Restarts goodL aheadL allL)
    (hR : R.Restarts goodR aheadR all) :
    (Source.nestedLoop L R on).Restarts (LoopGood goodL goodR aheadR fitL all)
      (loopAhead aheadL aheadR on all) (allL.flatMap (joinsOf on · all)) := by
  intro s hs
  obtain ⟨t, hrestart, ht, ha⟩ := hL s.left hs.left
  obtain ⟨u, hrestart', hu, ha'⟩ := hR s.right hs.right
  refine ⟨⟨t, u, none, false⟩, ?_, ⟨ht, hu, by simp, fun _ => ha'⟩, by simp [loopAhead, ha]⟩
  simp [Source.nestedLoop, hrestart, hrestart']

end NestedLoop

/-! ## Hash tables -/

section Hash

variable {L : Source σ} {R : Source τ} {goodL : σ → Prop} {aheadL : σ → List Row}
  {fitL : Row → Prop} {goodR : τ → Prop} {aheadR : τ → List Row} {fitR : Row → Prop}
  {on : Predicate} {all : List Row}

/-- Buckets that hold the rows, each under the value of the key. -/
def Keyed (key : Term) (rows : List Row) (buckets : List (Datum × Row)) : Prop :=
  buckets.map (·.2) = rows ∧ ∀ b ∈ buckets, key.value b.2 = .ok b.1

/-- The bucket that a left row looks up holds the right rows it joins with. -/
theorem Keyed.bucket_eq {buckets : List (Datum × Row)} (h : Keyed on.right all buckets)
    {l : Row} {key : Datum} (hl : on.left.value l = .ok key) :
    bucket buckets key = all.filter (on.joins l) := by
  obtain ⟨rfl, hkeys⟩ := h
  rw [bucket, List.filter_map]
  refine congrArg _ (List.filter_congr fun b hb => ?_)
  simp only [Function.comp_apply, Predicate.joins, Term.read_of_value hl,
    Term.read_of_value (hkeys b hb), Option.some.injEq]
  exact decide_eq_decide.2 eq_comm

/-- All rows ahead are put into buckets. -/
theorem Hands.collect (hR : R.Hands goodR aheadR fitR) {key : Term}
    (hkey : ∀ r, fitR r → ∃ d, key.value r = .ok d) {rows : List Row}
    {buckets : List (Datum × Row)} {t : τ} (l : Layout) (ht : goodR t)
    (hb : Keyed key rows buckets) :
    ∃ filled u m, R.collect key buckets t l = (.ok (), filled, u, m) ∧ goodR u
      ∧ Keyed key (rows ++ aheadR t) filled := by
  generalize hahead : aheadR t = more
  induction more generalizing t l rows buckets with
  | nil =>
    obtain ⟨u, m, hn, hu, -⟩ := hR.next l ht
    rw [hahead] at hn
    refine ⟨buckets, u, m, ?_, hu, by simpa using hb⟩
    rw [collect_of_next hn]
    rfl
  | cons r more ih =>
    obtain ⟨u, m, hn, hu, ha⟩ := hR.next l ht
    obtain ⟨d, hd⟩ := hkey r (hR.fits ht (hahead ▸ List.mem_cons_self))
    rw [hahead] at hn ha
    have hkeyed : Keyed key (rows ++ [r]) (buckets ++ [(d, r)]) := by
      refine ⟨by simp [hb.1], fun b hmem => ?_⟩
      rcases List.mem_append.1 hmem with hmem | hmem
      · exact hb.2 b hmem
      · cases List.mem_singleton.1 hmem
        exact hd
    obtain ⟨filled, v, k, hc, hv, hfilled⟩ := ih m hu hkeyed ha
    refine ⟨filled, v, k, ?_, hv, by simpa using hfilled⟩
    rw [collect_of_next hn]
    dsimp only [List.head?_cons, collectRound]
    rw [hd]
    exact hc

/-- What is ahead of a hash join: the pairs that were found, then those of the rows to come. -/
def hashAhead (aheadL : σ → List Row) (on : Predicate) (all : List Row) (s : HashState σ τ) :
    List Row :=
  s.pending.map (fun p => p.1.beside p.2)
    ++ if s.exhausted then [] else (aheadL s.left).flatMap (joinsOf on · all)

/-- The left input of a hash join is good, and the buckets hold all of the right one. -/
structure HashGood (goodL : σ → Prop) (fitL fitR : Row → Prop) (on : Predicate)
    (all : List Row) (s : HashState σ τ) : Prop where
  left : goodL s.left
  keyed : Keyed on.right all s.buckets
  pending : ∀ p ∈ s.pending, fitL p.1 ∧ fitR p.2

/-- A pair that was found is handed out first. -/
theorem HashGood.nextPaired_pending {left : σ} {right : τ} {buckets : List (Datum × Row)}
    {p : Row × Row} {pending : List (Row × Row)} {exhausted : Bool}
    (hp : ∀ l r, fitL l → fitR r → Pairs on l r) (l : Layout)
    (hs : HashGood goodL fitL fitR on all ⟨left, right, buckets, p :: pending, exhausted⟩) :
    Source.nextPaired L on ⟨left, right, buckets, p :: pending, exhausted⟩ l
        = (.ok (some (p.1.beside p.2)), ⟨left, right, buckets, pending, exhausted⟩, l)
      ∧ HashGood goodL fitL fitR on all ⟨left, right, buckets, pending, exhausted⟩ := by
  obtain ⟨row, r⟩ := p
  obtain ⟨hfit, hpending⟩ := List.forall_mem_cons.1 hs.pending
  refine ⟨?_, hs.left, hs.keyed, hpending⟩
  rw [nextPaired_of_pending]
  simp [(hp row r hfit.1 hfit.2).combine, Except.map]

/-- With no pair left a hash join goes on to the first left row that has a bucket. -/
theorem Hands.nextPaired (hL : L.Hands goodL aheadL fitL)
    (hp : ∀ l r, fitL l → fitR r → Pairs on l r)
    (hval : ∀ l, fitL l → ∃ d, on.left.value l = .ok d) (hall : ∀ r ∈ all, fitR r)
    {left : σ} {right : τ} {buckets : List (Datum × Row)} (l : Layout)
    (hs : HashGood goodL fitL fitR on all ⟨left, right, buckets, [], false⟩) :
    ∃ u m, Source.nextPaired L on ⟨left, right, buckets, [], false⟩ l
        = (.ok ((aheadL left).flatMap (joinsOf on · all)).head?, u, m)
      ∧ HashGood goodL fitL fitR on all u
      ∧ hashAhead aheadL on all u = ((aheadL left).flatMap (joinsOf on · all)).tail := by
  generalize hrows : aheadL left = rows
  induction rows generalizing left l with
  | nil =>
    obtain ⟨u, m, hn, hu, ha⟩ := hL.next l hs.left
    simp only [hrows] at hn ha
    refine ⟨⟨u, right, buckets, [], true⟩, m, ?_, ⟨hu, hs.keyed, by simp⟩, by simp [hashAhead]⟩
    rw [nextPaired_of_next hn]
    rfl
  | cons row rows ih =>
    obtain ⟨u, m, hn, hu, ha⟩ := hL.next l hs.left
    have hfit : fitL row := hL.fits hs.left (by simp [hrows])
    simp only [hrows] at hn ha
    obtain ⟨key, hkey⟩ := hval row hfit
    have hbucket := hs.keyed.bucket_eq hkey
    have hstep : Source.nextPaired L on ⟨left, right, buckets, [], false⟩ l
        = Source.nextPaired L on
          ⟨u, right, buckets, (all.filter (on.joins row)).map (row, ·), false⟩ m := by
      rw [nextPaired_of_next hn]
      dsimp only [List.head?_cons]
      rw [hkey]
      simp only [hbucket]
    rw [hstep, List.flatMap_cons, joinsOf]
    cases hj : all.filter (on.joins row) with
    | nil =>
      simpa using ih m ⟨hu, hs.keyed, by simp⟩ ha
    | cons r rest =>
      have hrest : ∀ q ∈ (r :: rest).map (row, ·), fitL q.1 ∧ fitR q.2 := by
        intro q hq
        obtain ⟨r', hr', rfl⟩ := List.mem_map.1 hq
        exact ⟨hfit, hall r' (List.mem_filter.1 (hj ▸ hr')).1⟩
      have hgood : HashGood goodL fitL fitR on all
          ⟨u, right, buckets, (r :: rest).map (row, ·), false⟩ := ⟨hu, hs.keyed, hrest⟩
      obtain ⟨hnext, hgood⟩ := HashGood.nextPaired_pending (L := L) hp m hgood
      refine ⟨_, m, hnext, hgood, ?_⟩
      simp [hashAhead, ha, Function.comp_def]

/-- A hash join hands out, for each left row, its joins with all right rows. -/
theorem Hands.hash {fit : Row → Prop} (hL : L.Hands goodL aheadL fitL)
    (hp : ∀ l r, fitL l → fitR r → Pairs on l r)
    (hval : ∀ l, fitL l → ∃ d, on.left.value l = .ok d) (hall : ∀ r ∈ all, fitR r)
    (hfit : ∀ l r, fitL l → fitR r → fit (l.beside r)) :
    (Source.hash (τ := τ) L on).Hands (HashGood goodL fitL fitR on all)
      (hashAhead aheadL on all) fit where
  next := by
    intro s l hs
    show ∃ t m, Source.nextPaired L on s l = _ ∧ _
    obtain ⟨left, right, buckets, pending, exhausted⟩ := s
    cases pending with
    | cons p pending =>
      obtain ⟨hnext, hgood⟩ := HashGood.nextPaired_pending (L := L) hp l hs
      exact ⟨_, l, hnext, hgood, rfl⟩
    | nil =>
      cases exhausted with
      | true =>
        exact ⟨_, l, nextPaired_of_exhausted rfl rfl, hs, rfl⟩
      | false => simpa [hashAhead] using hL.nextPaired hp hval hall l hs
  fits := by
    intro s row hs hmem
    rcases List.mem_append.1 hmem with hmem | hmem
    · obtain ⟨p, hpend, rfl⟩ := List.mem_map.1 hmem
      exact hfit _ _ (hs.pending p hpend).1 (hs.pending p hpend).2
    · split at hmem
      · cases hmem
      · obtain ⟨l, hl, hmem⟩ := List.mem_flatMap.1 hmem
        obtain ⟨r, hr, rfl⟩ := List.mem_map.1 hmem
        exact hfit l r (hL.fits hs.left hl) (hall r (List.mem_filter.1 hr).1)

theorem Restarts.hash {allL : List Row} (hL : L.Restarts goodL aheadL allL) :
    (Source.hash (τ := τ) L on).Restarts (HashGood goodL fitL fitR on all)
      (hashAhead aheadL on all) (allL.flatMap (joinsOf on · all)) := by
  intro s hs
  obtain ⟨t, hrestart, ht, ha⟩ := hL s.left hs.left
  refine ⟨{ s with left := t, pending := [], exhausted := false }, ?_, ⟨ht, hs.keyed, by simp⟩,
    by simp [hashAhead, ha]⟩
  simp [Source.hash, hrestart]

end Hash

/-! ## Projections -/

/-- The values of the outputs that have one on a row. -/
def outputsOn (outputs : List Term) (row : Row) : Row :=
  .projected (outputs.filterMap (·.read row))

theorem valuesOf_eq_ok {outputs : List Term} {row : Row}
    (h : ∀ t ∈ outputs, ∃ d, t.value row = .ok d) :
    valuesOf outputs row = .ok (outputs.filterMap (·.read row)) := by
  induction outputs with
  | nil => rfl
  | cons t outputs ih =>
    obtain ⟨⟨d, hd⟩, h⟩ := List.forall_mem_cons.1 h
    have ih := ih h
    unfold valuesOf at ih ⊢
    rw [List.mapM_cons, hd, ih, List.filterMap_cons, Term.read_of_value hd]
    rfl

theorem Hands.project {S : Source σ} {good : σ → Prop} {ahead : σ → List Row} {fit : Row → Prop}
    {outputs : List Term} (hS : S.Hands good ahead fit)
    (hval : ∀ row, fit row → ∀ t ∈ outputs, ∃ d, t.value row = .ok d) :
    (Source.project S outputs).Hands good (fun s => (ahead s).map (outputsOn outputs))
      fun row => ∃ input, fit input ∧ row = outputsOn outputs input where
  next := by
    intro s l hs
    obtain ⟨t, m, hn, ht, ha⟩ := hS.next l hs
    cases hrows : ahead s with
    | nil =>
      rw [hrows] at hn ha
      exact ⟨t, m, by simp [Source.project, projected, hn], ht, by simp [ha]⟩
    | cons row rows =>
      rw [hrows] at hn ha
      have hv := valuesOf_eq_ok (hval row (hS.fits hs (hrows ▸ List.mem_cons_self)))
      refine ⟨t, m, ?_, ht, by simp [ha]⟩
      simp [Source.project, projected, hn, hv, Except.map, outputsOn]
  fits := by
    intro s row hs hmem
    obtain ⟨input, hinput, rfl⟩ := List.mem_map.1 hmem
    exact ⟨input, hS.fits hs hinput, rfl⟩

end RelQuery.Source
