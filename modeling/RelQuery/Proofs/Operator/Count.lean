/-
  How many rows a run gives: over a store that is not written, no more than there are ways to choose
  an entry of each relation that is scanned.

  A number is kept for every state of a run, an upper bound on the rows that it still gives
  (`Operator.most`). A call never raises it, whatever it answers, and a row lowers it: that is all
  that is needed of records, predicates and pages, so none of them need be well formed. For a scan
  the number is that of the entries ahead. A nested loop has what is left for the row at hand, and
  all of the right input for each left row to come; so the right input must go back to no more than
  it had at first, which is why it has to be one that can be restarted. A hash join has the pairs
  that wait, and all buckets for each left row to come.

  Main statement: `Operator.rows_of_opened`.
-/
import Mathlib.Algebra.BigOperators.Group.List.Basic
import RelQuery.Proofs.Operator.Anew
import RelQuery.Proofs.Operator.Rounds

namespace RelQuery

open Store (Layout Cursor)

/-! ## Entries -/

/-- How many entries a partition has, none if it is not there. -/
def Store.entryCount (s : Store) (partition : String) : ℕ :=
  (s.contents partition).toOption.elim 0 (·.size)

/-- The product of the numbers of entries of the relations that a plan scans. -/
def Plan.entryProduct (p : Plan) (s : Store) : ℕ := (p.scans.map (s.entryCount ·.name)).prod

theorem Store.entryCount_of_openTable {s : Store} {partition : String} {id : TableId}
    (h : s.openTable partition = .ok id) : s.entryCount partition = (s.table id).size := by
  rw [entryCount, contents, h]
  rfl

theorem Plan.entryProduct_join {strategy : JoinStrategy} {on : Predicate} (left right : Plan)
    (s : Store) :
    (join strategy on left right).entryProduct s = left.entryProduct s * right.entryProduct s := by
  rw [entryProduct, scans, List.map_append, List.prod_append]
  rfl

namespace Source

variable {σ τ : Type} {L : Source σ} {R : Source τ} {on : Predicate} {l m : Layout}
  {answer : Except Error (Option Row)}

/-! ## Sources with a limit -/

/-- Whether an answer is a row, and not the end or a failure. -/
def isRow : Except Error (Option Row) → Bool
  | .ok (some _) => true
  | _ => false

/-- An answer holds one row or none. -/
def rowCount (answer : Except Error (Option Row)) : ℕ := if isRow answer then 1 else 0

@[simp] theorem rowCount_error (e : Error) : rowCount (.error e) = 0 := rfl

@[simp] theorem rowCount_none : rowCount (.ok none) = 0 := rfl

@[simp] theorem rowCount_some (row : Row) : rowCount (.ok (some row)) = 1 := rfl

theorem rowCount_le_one (answer : Except Error (Option Row)) : rowCount answer ≤ 1 := by
  unfold rowCount
  split <;> simp

/-- The answers to calls for a row, each of which finds a layout of its own. -/
def asked (S : Source σ) : List Layout → σ → List (Except Error (Option Row))
  | [], _ => []
  | l :: layouts, s => (S.next s l).1 :: S.asked layouts (S.next s l).2.1

/-- From a good state no more than so many rows come, and from no good state more than all. -/
structure Limits (S : Source σ) (good : σ → Prop) (most : σ → ℕ) (all : ℕ) : Prop where
  next : ∀ {s l answer t m}, good s → S.next s l = (answer, t, m) →
    good t ∧ most t + rowCount answer ≤ most s
  most_le : ∀ {s}, good s → most s ≤ all

/-- From every good state the source can go back to a good one. -/
def Returns (S : Source σ) (good : σ → Prop) : Prop :=
  ∀ s, good s → ∃ t, S.restart s = (.ok (), t) ∧ good t

theorem Limits.asked {good : σ → Prop} {most : σ → ℕ} {all : ℕ} (h : L.Limits good most all) {s : σ}
    (hs : good s) (layouts : List Layout) :
    (L.asked layouts s).countP isRow ≤ most s := by
  induction layouts generalizing s with
  | nil => exact Nat.zero_le _
  | cons l layouts ih =>
    rw [Source.asked, List.countP_cons, ← rowCount]
    generalize hn : L.next s l = replied
    obtain ⟨answer, t, m⟩ := replied
    obtain ⟨ht, hle⟩ := h.next hs hn
    have hrest := ih ht
    dsimp only
    omega

theorem length_asked (S : Source σ) (layouts : List Layout) (s : σ) :
    (S.asked layouts s).length = layouts.length := by
  induction layouts generalizing s with
  | nil => rfl
  | cons l layouts ih => exact congrArg (· + 1) (ih _)

/-- Not all of more calls than that can give a row. -/
theorem Limits.exists_no_row {good : σ → Prop} {most : σ → ℕ} {all : ℕ} (h : L.Limits good most all)
    {s : σ} (hs : good s) {layouts : List Layout} (hlong : all < layouts.length) :
    ∃ answer ∈ L.asked layouts s, isRow answer = false := by
  by_contra hno
  have hrows : ∀ answer ∈ L.asked layouts s, isRow answer = true := by
    intro answer hmem
    cases hrow : isRow answer with
    | true => rfl
    | false => exact absurd ⟨answer, hmem, hrow⟩ hno
  have hcount := h.asked hs layouts
  rw [List.countP_eq_length.2 hrows, length_asked] at hcount
  exact Nat.not_le_of_lt hlong (Nat.le_trans hcount (h.most_le hs))

/-- What is put off to each of fewer left rows leaves room for the row that was taken. -/
theorem mul_add_le {a b c : ℕ} (h : a + 1 ≤ b) : a * c + c ≤ b * c := by
  rw [← Nat.succ_mul]
  exact Nat.mul_le_mul_right c h

/-! ### Scans -/

/-- A scan that is open on its relation, and has no more entries ahead than there are in it. -/
structure ScanWithin (store : Store) (r : Schema) (c : Option Cursor) : Prop where
  opened : ∃ d, c = some d ∧ store.openTable r.name = .ok d.table
  ahead : (entriesAhead store c).length ≤ store.entryCount r.name

/-- The cursor stands in the table, with at most so many entries ahead. -/
def CursorWithin (store : Store) (id : TableId) (n : ℕ) (c : Cursor) : Prop :=
  c.table = id ∧ (c.ahead store).length ≤ n

theorem CursorWithin.next {store : Store} {partition : String} {id : TableId} {n : ℕ}
    {c d : Cursor} {answer : Except Error (Option (Bytes × Bytes))}
    (hopen : store.openTable partition = .ok id) (hc : CursorWithin store id n c)
    (h : c.next { store with layout := l } = (answer, d, m)) : CursorWithin store id n d := by
  obtain ⟨rfl, hle⟩ := hc
  obtain ⟨d', k, hn, ha, ht, -⟩ := Cursor.next_of_openTable hopen l
  obtain rfl : d' = d := congrArg (·.2.1) (hn.symm.trans h)
  refine ⟨ht, ?_⟩
  rw [ha, List.length_tail]
  exact Nat.le_trans (Nat.sub_le _ _) hle

theorem firstMatch_within {store : Store} {r : Schema} {filter : List Predicate} {c d : Cursor}
    (hopen : store.openTable r.name = .ok c.table)
    (h : firstMatch store r filter c l = (answer, d, m)) :
    d.table = c.table ∧ (d.ahead store).length + rowCount answer ≤ (c.ahead store).length := by
  have hwithin : CursorWithin store c.table (c.ahead store).length c := ⟨rfl, Nat.le_refl _⟩
  refine ⟨(firstMatch_keeps (CursorWithin.next hopen) hwithin h).1, ?_⟩
  refine Loop.run_leads h (fun s => CursorWithin store c.table (c.ahead store).length s.1)
    (fun a => (a.2.1.ahead store).length + rowCount a.1 ≤ (c.ahead store).length) hwithin ?_
  rintro ⟨b, l⟩ hb
  refine searchRound_leads ?failed ?last ?found ?again
  case failed => exact fun e d k hn => (hb.next hopen hn).2
  case last => exact fun d k hn => (hb.next hopen hn).2
  case found =>
    intro e d k found hn _
    have hless : (d.ahead store).length + 1 ≤ (b.ahead store).length := length_ahead_of_next hn
    have hone : rowCount (found.map some) ≤ 1 := rowCount_le_one _
    exact Nat.le_trans (Nat.add_le_add_left hone _) (Nat.le_trans hless hb.2)
  case again => exact fun e d k hn _ => hb.next hopen hn

theorem Limits.scan (store : Store) (r : Schema) (filter : List Predicate) :
    (Source.scan store r filter).Limits (ScanWithin store r)
      (fun c => (entriesAhead store c).length) (store.entryCount r.name) where
  next := by
    intro s l answer t m hs h
    obtain ⟨c, rfl, hopen⟩ := hs.opened
    have hahead := hs.ahead
    obtain ⟨d, rfl, hm⟩ := exists_of_next_scan h
    obtain ⟨htable, hle⟩ := firstMatch_within hopen hm
    simp only [entriesAhead] at hahead ⊢
    exact ⟨⟨⟨d, rfl, htable ▸ hopen⟩, by rw [entriesAhead]; omega⟩, hle⟩
  most_le hs := hs.ahead

theorem scanWithin_start {store : Store} {r : Schema} {id : TableId}
    (h : store.openTable r.name = .ok id) (partition : String) :
    ScanWithin store r (some (.start partition id)) :=
  ⟨⟨_, rfl, h⟩, by rw [Store.entryCount_of_openTable h]; exact Nat.le_refl _⟩

theorem Returns.scan (store : Store) (r : Schema) (filter : List Predicate) :
    (Source.scan store r filter).Returns (ScanWithin store r) := by
  intro s hs
  obtain ⟨c, rfl, hopen⟩ := hs.opened
  exact ⟨_, rfl, scanWithin_start hopen c.partition⟩

/-! ### Nested loops -/

section NestedLoop

variable {goodL : σ → Prop} {mostL : σ → ℕ} {allL : ℕ} {goodR : τ → Prop} {mostR : τ → ℕ} {allR : ℕ}

/-- What is left for the row at hand, and all of the right input for each left row to come. -/
def loopMost (mostL : σ → ℕ) (mostR : τ → ℕ) (allR : ℕ) (s : LoopState σ τ) : ℕ :=
  s.held.elim 0 (fun _ => mostR s.right) + mostL s.left * allR

structure LoopWithin (goodL : σ → Prop) (goodR : τ → Prop) (most : LoopState σ τ → ℕ) (all : ℕ)
    (s : LoopState σ τ) : Prop where
  left : goodL s.left
  right : goodR s.right
  most_le : most s ≤ all

theorem Limits.probe (hR : R.Limits goodR mostR allR) {row : Row} {t u : τ} (ht : goodR t)
    (h : R.probe on row t l = (answer, u, m)) :
    goodR u ∧ mostR u + rowCount answer ≤ mostR t := by
  refine Loop.run_leads h (fun v => goodR v.1 ∧ mostR v.1 ≤ mostR t)
    (fun a => goodR a.2.1 ∧ mostR a.2.1 + rowCount a.1 ≤ mostR t) ⟨ht, Nat.le_refl _⟩ ?_
  rintro ⟨v, l⟩ ⟨hv, hmost⟩
  refine searchRound_leads ?failed ?last ?found ?again
  case failed =>
    intro e w k hn
    obtain ⟨hw, hle⟩ := hR.next hv hn
    exact ⟨hw, Nat.le_trans hle hmost⟩
  case last =>
    intro w k hn
    obtain ⟨hw, hle⟩ := hR.next hv hn
    exact ⟨hw, Nat.le_trans hle hmost⟩
  case found =>
    intro r w k found hn _
    obtain ⟨hw, hle⟩ := hR.next hv hn
    have hone : mostR w + rowCount (found.map some) ≤ mostR w + 1 :=
      Nat.add_le_add_left (rowCount_le_one _) _
    exact ⟨hw, Nat.le_trans hone (Nat.le_trans hle hmost)⟩
  case again =>
    intro r w k hn _
    obtain ⟨hw, hle⟩ := hR.next hv hn
    exact ⟨hw, Nat.le_trans (Nat.le_of_succ_le hle) hmost⟩

/-- A sweep that finds no row leaves the right input anywhere within its limit. -/
theorem Limits.sweep (hR : R.Limits goodR mostR allR) (hback : R.Returns goodR) {row : Row}
    {t u : τ} (ht : goodR t) (h : R.sweep on row t l = (answer, u, m)) :
    goodR u ∧ ∀ joined, answer = .ok (some joined) → mostR u + 1 ≤ mostR t := by
  obtain hp | ⟨v, back, hp, hr, rfl⟩ := sweep_cases h
  · obtain ⟨hu, hle⟩ := hR.probe ht hp
    refine ⟨hu, ?_⟩
    rintro joined rfl
    exact hle
  · obtain ⟨w, hw, hgood⟩ := hback v (hR.probe ht hp).1
    cases hr.symm.trans hw
    exact ⟨hgood, nofun⟩

/-- A round for a left row stays within `all`, if there is room in it for the `n` rows that the
right input has for that row and for what comes after it. -/
theorem heldRound_within {left : σ} {row : Row} {t : τ} {found : Except Error (Option Row)}
    {n all : ℕ} (hleft : goodL left) (ht : goodR t)
    (hless : ∀ joined, found = .ok (some joined) → mostR t + 1 ≤ n)
    (hroom : n + mostL left * allR ≤ all) :
    (heldRound left row (found, t, l)).Leads
      (fun v => (goodL v.1 ∧ goodR v.2.1) ∧ mostL v.1 * allR ≤ all)
      fun a => (goodL a.2.1.left ∧ goodR a.2.1.right)
        ∧ loopMost mostL mostR allR a.2.1 + rowCount a.1 ≤ all := by
  have hrest : mostL left * allR ≤ all := Nat.le_trans (Nat.le_add_left ..) hroom
  refine heldRound_leads ?failed ?joined ?last
  case failed => exact fun e _ => ⟨⟨hleft, ht⟩, by simpa [loopMost] using hrest⟩
  case joined =>
    intro joined hfound
    refine ⟨⟨hleft, ht⟩, ?_⟩
    have hone : mostR t + 1 ≤ n := hless joined hfound
    simp only [loopMost, Option.elim_some, rowCount_some]
    omega
  case last => exact fun _ => ⟨⟨hleft, ht⟩, hrest⟩

theorem Limits.pull (hL : L.Limits goodL mostL allL) (hR : R.Limits goodR mostR allR)
    (hback : R.Returns goodR) {s : σ} {t : τ} {u : LoopState σ τ} (hs : goodL s) (ht : goodR t)
    (h : Source.pull L R on s t l = (answer, u, m)) :
    (goodL u.left ∧ goodR u.right)
      ∧ loopMost mostL mostR allR u + rowCount answer ≤ mostL s * allR := by
  refine Loop.run_leads h
    (fun v => (goodL v.1 ∧ goodR v.2.1) ∧ mostL v.1 * allR ≤ mostL s * allR)
    (fun a => (goodL a.2.1.left ∧ goodR a.2.1.right)
      ∧ loopMost mostL mostR allR a.2.1 + rowCount a.1 ≤ mostL s * allR)
    ⟨⟨hs, ht⟩, Nat.le_refl _⟩ ?_
  rintro ⟨v, t, l⟩ ⟨⟨hv, ht⟩, hmost⟩
  have hrest {w : σ} (hle : mostL w ≤ mostL v) : mostL w * allR ≤ mostL s * allR :=
    Nat.le_trans (Nat.mul_le_mul_right allR hle) hmost
  refine pullRound_leads ?failed ?last ?swept
  case failed =>
    intro e w k hn
    obtain ⟨hw, hle⟩ := hL.next hv hn
    exact ⟨⟨hw, ht⟩, by simpa [loopMost] using hrest hle⟩
  case last =>
    intro w k hn
    obtain ⟨hw, hle⟩ := hL.next hv hn
    exact ⟨⟨hw, ht⟩, by simpa [loopMost] using hrest hle⟩
  case swept =>
    intro row w k found t' i hn hsweep
    obtain ⟨hw, hle⟩ := hL.next hv hn
    obtain ⟨ht', hless⟩ := hR.sweep hback ht hsweep
    -- The row at hand has at most the whole right input, of which one row was given.
    have hall : ∀ joined, found = .ok (some joined) → mostR t' + 1 ≤ allR :=
      fun joined hfound => Nat.le_trans (hless joined hfound) (hR.most_le ht)
    have hroom : mostL w * allR + allR ≤ mostL s * allR := Nat.le_trans (mul_add_le hle) hmost
    exact heldRound_within hw ht' hall (Nat.add_comm .. ▸ hroom)

theorem Limits.nextJoined (hL : L.Limits goodL mostL allL) (hR : R.Limits goodR mostR allR)
    (hback : R.Returns goodR) {s u : LoopState σ τ} (hs : goodL s.left) (ht : goodR s.right)
    (h : Source.nextJoined L R on s l = (answer, u, m)) :
    (goodL u.left ∧ goodR u.right)
      ∧ loopMost mostL mostR allR u + rowCount answer ≤ loopMost mostL mostR allR s := by
  refine nextJoined_leads h (fun a => (goodL a.2.1.left ∧ goodR a.2.1.right)
    ∧ loopMost mostL mostR allR a.2.1 + rowCount a.1 ≤ loopMost mostL mostR allR s) ?_ ?_ ?_
  · exact fun _ => ⟨⟨hs, ht⟩, Nat.le_refl _⟩
  · intro hheld
    obtain ⟨hgood, hle⟩ := hL.pull hR hback hs ht rfl
    exact ⟨hgood, Nat.le_add_left_of_le hle⟩
  · intro row found t k hheld hsweep
    obtain ⟨ht', hless⟩ := hR.sweep hback ht hsweep
    have hroom : mostR s.right + mostL s.left * allR ≤ loopMost mostL mostR allR s := by
      rw [loopMost, hheld, Option.elim_some]
    have hround : (heldRound s.left row (found, t, k)).Leads
        (fun v => (goodL v.1 ∧ goodR v.2.1) ∧ mostL v.1 * allR ≤ loopMost mostL mostR allR s) _ :=
      heldRound_within hs ht' hless hroom
    refine hround.mono (fun v hv => ?_) fun _ ha => ha
    obtain ⟨hgood, hle⟩ := hL.pull hR hback hv.1.1 hv.1.2 rfl
    exact ⟨hgood, Nat.le_trans hle hv.2⟩

theorem Limits.nestedLoop (hL : L.Limits goodL mostL allL) (hR : R.Limits goodR mostR allR)
    (hback : R.Returns goodR) :
    (Source.nestedLoop L R on).Limits
      (LoopWithin goodL goodR (loopMost mostL mostR allR) (allL * allR))
      (loopMost mostL mostR allR) (allL * allR) where
  next := by
    intro s l answer u m hs h
    obtain ⟨⟨hleft, hright⟩, hle⟩ := hL.nextJoined hR hback hs.left hs.right h
    exact ⟨⟨hleft, hright, Nat.le_trans (Nat.le_of_add_right_le hle) hs.most_le⟩, hle⟩
  most_le hs := hs.most_le

/-- Before the first row of a nested loop there are as many left rows to come as there are. -/
theorem loopWithin_start (hL : L.Limits goodL mostL allL) {s : σ} {t : τ} (hs : goodL s)
    (ht : goodR t) {exhausted : Bool} :
    LoopWithin goodL goodR (loopMost mostL mostR allR) (allL * allR) ⟨s, t, none, exhausted⟩ :=
  ⟨hs, ht, by simpa [loopMost] using Nat.mul_le_mul_right allR (hL.most_le hs)⟩

theorem Returns.nestedLoop (hlimits : L.Limits goodL mostL allL) (hL : L.Returns goodL)
    (hR : R.Returns goodR) :
    (Source.nestedLoop L R on).Returns
      (LoopWithin goodL goodR (loopMost mostL mostR allR) (allL * allR)) := by
  intro s hs
  obtain ⟨t, ht, hleft⟩ := hL s.left hs.left
  obtain ⟨u, hu, hright⟩ := hR s.right hs.right
  exact ⟨⟨t, u, none, false⟩, by simp [Source.nestedLoop, ht, hu],
    loopWithin_start hlimits hleft hright⟩

end NestedLoop

/-! ### Hash tables -/

section Hash

variable {goodL : σ → Prop} {mostL : σ → ℕ} {allL : ℕ} {goodR : τ → Prop} {mostR : τ → ℕ} {allR : ℕ}

/-- The pairs that wait, and all buckets for each left row to come. -/
def hashMost (mostL : σ → ℕ) (s : HashState σ τ) : ℕ :=
  s.pending.length + mostL s.left * s.buckets.length

structure HashWithin (goodL : σ → Prop) (mostL : σ → ℕ) (allL allR : ℕ) (s : HashState σ τ) :
    Prop where
  left : goodL s.left
  buckets : s.buckets.length ≤ allR
  most_le : hashMost mostL s ≤ allL * allR

theorem length_bucket_le (buckets : List (Datum × Row)) (key : Datum) :
    (bucket buckets key).length ≤ buckets.length := by
  rw [bucket, List.length_map]
  exact List.length_filter_le ..

/-- A left row that was read makes room for its bucket. -/
theorem hashMost_of_next {s : HashState σ τ} {left : σ} {row : Row} {key : Datum}
    (hpending : s.pending = []) (hle : mostL left + 1 ≤ mostL s.left) :
    hashMost mostL { s with left, pending := (bucket s.buckets key).map (row, ·) }
      ≤ hashMost mostL s := by
  have hbucket := length_bucket_le s.buckets key
  have hroom : mostL left * s.buckets.length + s.buckets.length
      ≤ mostL s.left * s.buckets.length := mul_add_le hle
  simp only [hashMost, hpending, List.length_map, List.length_nil]
  omega

theorem Limits.nextPaired (hL : L.Limits goodL mostL allL) {s u : HashState σ τ} (hs : goodL s.left)
    (h : Source.nextPaired L on s l = (answer, u, m)) :
    (goodL u.left ∧ u.buckets = s.buckets)
      ∧ hashMost mostL u + rowCount answer ≤ hashMost mostL s := by
  refine Loop.run_leads h
    (fun v => (goodL v.1.left ∧ v.1.buckets = s.buckets) ∧ hashMost mostL v.1 ≤ hashMost mostL s)
    (fun a => (goodL a.2.1.left ∧ a.2.1.buckets = s.buckets)
      ∧ hashMost mostL a.2.1 + rowCount a.1 ≤ hashMost mostL s) ⟨⟨hs, rfl⟩, Nat.le_refl _⟩ ?_
  rintro ⟨v, l⟩ ⟨⟨hleft, hbuckets⟩, hmost⟩
  have hmoved {left : σ} {exhausted : Bool} (hle : mostL left ≤ mostL v.left) :
      hashMost mostL { v with left, exhausted } ≤ hashMost mostL s :=
    Nat.le_trans (Nat.add_le_add_left (Nat.mul_le_mul_right v.buckets.length hle) _) hmost
  refine pairRound_leads ?pending ?exhausted ?failed ?last ?again
  case pending =>
    intro row r pending hp
    refine ⟨⟨hleft, hbuckets⟩, Nat.le_trans ?_ hmost⟩
    have hone : rowCount ((row.combine r).map some) ≤ 1 := rowCount_le_one _
    simp only [hashMost, hp, List.length_cons]
    omega
  case exhausted => exact fun _ _ => ⟨⟨hleft, hbuckets⟩, hmost⟩
  case failed =>
    intro e found left k _ hn
    obtain ⟨hleft, hle⟩ := hL.next hleft hn
    exact ⟨⟨hleft, hbuckets⟩, hmoved (Nat.le_of_add_right_le hle)⟩
  case last =>
    intro left k _ hn
    obtain ⟨hleft, hle⟩ := hL.next hleft hn
    exact ⟨⟨hleft, hbuckets⟩, hmoved (Nat.le_of_add_right_le hle)⟩
  case again =>
    intro row left k key hp hn _
    obtain ⟨hleft, hle⟩ := hL.next hleft hn
    exact ⟨⟨hleft, hbuckets⟩, Nat.le_trans (hashMost_of_next hp hle) hmost⟩

theorem Limits.hash (hL : L.Limits goodL mostL allL) :
    (Source.hash (τ := τ) L on).Limits (HashWithin goodL mostL allL allR) (hashMost mostL)
      (allL * allR) where
  next := by
    intro s l answer u m hs h
    obtain ⟨⟨hleft, hbuckets⟩, hle⟩ := hL.nextPaired hs.left h
    have hmost : hashMost mostL u ≤ allL * allR :=
      Nat.le_trans (Nat.le_of_add_right_le hle) hs.most_le
    exact ⟨⟨hleft, hbuckets ▸ hs.buckets, hmost⟩, hle⟩
  most_le hs := hs.most_le

/-- Each row that is read goes into one bucket. -/
theorem Limits.collect (hR : R.Limits goodR mostR allR) {key : Term}
    {buckets filled : List (Datum × Row)} {t u : τ} {answer : Except Error Unit} (ht : goodR t)
    (h : R.collect key buckets t l = (answer, filled, u, m)) :
    filled.length ≤ buckets.length + mostR t := by
  refine Loop.run_leads h
    (fun v => goodR v.2.1 ∧ v.1.length + mostR v.2.1 ≤ buckets.length + mostR t)
    (fun a => a.2.1.length ≤ buckets.length + mostR t) ⟨ht, Nat.le_refl _⟩ ?_
  rintro ⟨buckets', v, l⟩ ⟨hv, hmost⟩
  refine collectRound_leads ?done ?again
  case done => exact fun _ _ _ _ _ => Nat.le_of_add_right_le hmost
  case again =>
    intro row w k d hn _
    obtain ⟨hw, hle⟩ := hR.next hv hn
    have hone : mostR w + 1 ≤ mostR v := hle
    refine ⟨hw, ?_⟩
    rw [List.length_append, List.length_singleton]
    dsimp only at hmost ⊢
    omega

/-- Before the first row of a hash join there are as many left rows to come as there are. -/
theorem hashWithin_start (hL : L.Limits goodL mostL allL) {s : σ} {t : τ}
    {buckets : List (Datum × Row)} {exhausted : Bool} (hs : goodL s) (hb : buckets.length ≤ allR) :
    HashWithin goodL mostL allL allR ⟨s, t, buckets, [], exhausted⟩ :=
  ⟨hs, hb, by simpa [hashMost] using Nat.mul_le_mul (hL.most_le hs) hb⟩

theorem Returns.hash (hlimits : L.Limits goodL mostL allL) (hL : L.Returns goodL) :
    (Source.hash (τ := τ) L on).Returns (HashWithin goodL mostL allL allR) := by
  intro s hs
  obtain ⟨t, ht, hleft⟩ := hL s.left hs.left
  exact ⟨{ s with left := t, pending := [], exhausted := false }, by simp [Source.hash, ht],
    hashWithin_start hlimits hleft hs.buckets⟩

end Hash

/-! ### Projections -/

theorem Limits.project {good : σ → Prop} {most : σ → ℕ} {all : ℕ} (h : L.Limits good most all)
    (outputs : List Term) : (Source.project L outputs).Limits good most all where
  next := by
    intro s l answer t m hs hn
    obtain ⟨_ | _ | row, hask, rfl⟩ := exists_of_next_project hn
    · exact h.next hs hask
    · exact h.next hs hask
    · obtain ⟨ht, hle⟩ := h.next hs hask
      exact ⟨ht, Nat.le_trans (Nat.add_le_add_left (rowCount_le_one _) _) hle⟩
  most_le := h.most_le

end Source

/-! ## Runs with a limit -/

namespace Operator

variable {store : Store} {op : Operator} {first s : op.State} {l m : Layout}

/-- At most so many rows are still to come in a run over a store that is not written. -/
def most (store : Store) : (op : Operator) → op.State → ℕ
  | scan _ _ => fun c => (Source.entriesAhead store c).length
  | nestedLoop _ left right =>
    Source.loopMost (left.most store) (right.most store) (right.plan.entryProduct store)
  | hash _ left _ => Source.hashMost (left.most store)
  | project _ input => input.most store

/-- The scans of a run are open, and no part of it has more rows to come than it had at first. -/
def Within (store : Store) : (op : Operator) → op.State → Prop
  | scan r _ => Source.ScanWithin store r
  | nestedLoop on left right =>
    Source.LoopWithin (left.Within store) (right.Within store)
      ((nestedLoop on left right).most store)
      (left.plan.entryProduct store * right.plan.entryProduct store)
  | hash _ left right =>
    Source.HashWithin (left.Within store) (left.most store) (left.plan.entryProduct store)
      (right.plan.entryProduct store)
  | project _ input => input.Within store

/-- The inputs of an operator that was made of a plan were made of plans. -/
theorem ofPlan_nestedLoop {on : Predicate} {left right : Operator}
    (h : ofPlan (nestedLoop on left right).plan = .ok (nestedLoop on left right)) :
    ofPlan left.plan = .ok left ∧ ofPlan right.plan = .ok right ∧ right.restartable = true := by
  obtain ⟨l, hl, h⟩ := exists_of_bind_eq_ok h
  obtain ⟨r, hr, h⟩ := exists_of_bind_eq_ok h
  dsimp only at h
  split at h
  · rename_i hrestartable
    cases h
    exact ⟨hl, hr, hrestartable⟩
  · cases h

theorem ofPlan_hash {on : Predicate} {left right : Operator}
    (h : ofPlan (hash on left right).plan = .ok (hash on left right)) :
    ofPlan left.plan = .ok left ∧ ofPlan right.plan = .ok right := by
  obtain ⟨l, hl, h⟩ := exists_of_bind_eq_ok h
  obtain ⟨r, hr, h⟩ := exists_of_bind_eq_ok h
  cases h
  exact ⟨hl, hr⟩

theorem ofPlan_project {outputs : List Term} {input : Operator}
    (h : ofPlan (project outputs input).plan = .ok (project outputs input)) :
    ofPlan input.plan = .ok input := by
  obtain ⟨i, hi, h⟩ := exists_of_bind_eq_ok h
  cases h
  exact hi

/-- No call leads out of the limit, and what can be restarted comes back to it. -/
theorem limits (store : Store) (hop : ofPlan op.plan = .ok op) :
    (op.source store).Limits (op.Within store) (op.most store) (op.plan.entryProduct store)
      ∧ (op.restartable = true → (op.source store).Returns (op.Within store)) := by
  induction op with
  | scan r filter =>
    have hproduct : (scan r filter).plan.entryProduct store = store.entryCount r.name :=
      List.prod_singleton
    rw [hproduct]
    exact ⟨.scan store r filter, fun _ => .scan store r filter⟩
  | nestedLoop on left right ihl ihr =>
    obtain ⟨hleft, hright, hrestartable⟩ := ofPlan_nestedLoop hop
    obtain ⟨hL, hbackL⟩ := ihl hleft
    obtain ⟨hR, hbackR⟩ := ihr hright
    rw [plan, Plan.entryProduct_join]
    refine ⟨hL.nestedLoop hR (hbackR hrestartable), fun h => ?_⟩
    have hl : left.restartable = true := (Bool.and_eq_true_iff.1 h).1
    exact Source.Returns.nestedLoop hL (hbackL hl) (hbackR hrestartable)
  | hash on left right ihl ihr =>
    obtain ⟨hleft, hright⟩ := ofPlan_hash hop
    obtain ⟨hL, hbackL⟩ := ihl hleft
    rw [plan, Plan.entryProduct_join]
    exact ⟨hL.hash, fun h => Source.Returns.hash hL (hbackL h)⟩
  | project outputs input ih =>
    refine ⟨(ih (ofPlan_project hop)).1.project outputs, fun h => ?_⟩
    cases h

/-- A run that is opened for the first time begins within the limit. -/
theorem within_acquire (hop : ofPlan op.plan = .ok op)
    (h : op.acquire store op.initial l = (.ok (), first, m)) : op.Within store first := by
  induction op generalizing l m with
  | scan r filter =>
    obtain ⟨id, hid, rfl⟩ := exists_of_acquire_scan h
    exact Source.scanWithin_start hid r.name
  | nestedLoop on left right ihl ihr =>
    obtain ⟨hleft, hright, -⟩ := ofPlan_nestedLoop hop
    obtain ⟨t, k, u, hl, hr, rfl⟩ := exists_of_acquire_nestedLoop h
    exact Source.loopWithin_start (limits store hleft).1 (ihl hleft hl) (ihr hright hr)
  | hash on left right ihl ihr =>
    obtain ⟨hleft, hright⟩ := ofPlan_hash hop
    obtain ⟨t, k, u, i, buckets, v, hl, hr, hc, rfl⟩ := exists_of_acquire_hash h
    have hu : right.Within store u := ihr hright hr
    have hlimits := (limits store hright).1
    have hcollected := hlimits.collect hu hc
    rw [List.length_nil, Nat.zero_add] at hcollected
    exact Source.hashWithin_start (limits store hleft).1 (ihl hleft hl)
      (Nat.le_trans hcollected (hlimits.most_le hu))
  | project outputs input ih => exact ih (ofPlan_project hop) h

theorem UsedOn.within (hop : ofPlan op.plan = .ok op) (h : op.UsedOn store first s)
    (hfirst : op.Within store first) : op.Within store s := by
  obtain ⟨hlimits, hreturns⟩ := limits store hop
  induction h with
  | opened => exact hfirst
  | asked _ l ih => exact (hlimits.next ih rfl).1
  | restarted _ ih =>
    rename_i s _
    cases hrestartable : op.restartable with
    | true =>
      obtain ⟨t, ht, hgood⟩ := hreturns hrestartable s ih
      rw [ht]
      exact hgood
    | false =>
      rw [restart_of_not_restartable store (sound_of_ofPlan hop) hrestartable]
      exact ih

/-- With enough rounds `acquireIn` and `nextIn` answer as the operator does, in any state. Once it
was opened and only `UsedOn` the same store, calls give at most `entryProduct` rows, so that one of
more calls than that gives none or fails. -/
theorem rows_of_opened {p : Plan} {op : Operator} (hop : ofPlan p = .ok op) (store : Store) :
    (∀ s l, ∃ enough, ∀ n, enough ≤ n →
        op.acquireIn store n s l = some (op.acquire store s l)
          ∧ op.nextIn store n s l = some ((op.source store).next s l))
      ∧ ∀ l m first s, op.acquire store op.initial l = (.ok (), first, m) →
        op.UsedOn store first s → ∀ layouts : List Layout,
          ((op.source store).asked layouts s).countP Source.isRow ≤ p.entryProduct store
            ∧ (p.entryProduct store < layouts.length →
              ∃ answer ∈ (op.source store).asked layouts s, Source.isRow answer = false) := by
  obtain rfl := plan_of_ofPlan hop
  refine ⟨fun s l => ?_, fun l m first s hopened hused layouts => ?_⟩
  · exact Filter.eventually_atTop.1 ((ends_acquire store op s l).and (ends_next store op s l))
  · have hwithin : op.Within store s := hused.within hop (within_acquire hop hopened)
    have hlimits := (limits store hop).1
    exact ⟨Nat.le_trans (hlimits.asked hwithin layouts) (hlimits.most_le hwithin),
      hlimits.exists_no_row hwithin⟩

/-- The relations of numbers hold one entry and two. A nested loop over them that was opened gives
no more than two rows, and comes to its end within three calls. -/
theorem rows_sharedNumbers :
    ofPlan sharedNumbers.plan = .ok sharedNumbers
      ∧ sharedNumbers.plan.entryProduct sevens = 2
      ∧ ∃ first m, sharedNumbers.acquire sevens sharedNumbers.initial .empty = (.ok (), first, m)
        ∧ sharedNumbers.UsedOn sevens first first
        ∧ ∃ answer ∈ (sharedNumbers.source sevens).asked [.empty, .empty, .empty] first,
          Source.isRow answer = false := by
  have hop : ofPlan sharedNumbers.plan = .ok sharedNumbers := rfl
  have hproduct : sharedNumbers.plan.entryProduct sevens = 2 := by decide
  obtain ⟨first, m, hopened, -⟩ :=
    acquire_of_joinable joinable_sharedNumbers served_sharedNumbers .empty
  obtain ⟨-, hrows⟩ := rows_of_opened hop sevens
  obtain ⟨-, hend⟩ := hrows .empty m first first hopened .opened [.empty, .empty, .empty]
  exact ⟨hop, hproduct, first, m, hopened, .opened, hend (by rw [hproduct]; decide)⟩

end Operator

end RelQuery
