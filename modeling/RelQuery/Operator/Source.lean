/-
  Sources of rows over a store whose tables stay as they are: what scans, joins and projections
  do each time they are asked for a row.

  A source hands out one row at a time. What it reads may lie in pages that change when they are
  visited, so it is given the layout of the store and gives the new one back. It comes with an
  order on its states in which every row handed out leads strictly down, which is why the loops
  below end; the layout has no part in that.

  What is made of an answer does not depend on how the answer came about. So rounds are functions
  of answers, and what asks one input after the other does so in any monad.
-/
import RelQuery.Store
import RelQuery.Operator.Loop
import RelQuery.Predicate

namespace RelQuery

open Store (Layout Cursor)

/-- An answer and the state after it. -/
abbrev Answer (σ α : Type) := Except Error α × σ

/-- Something that can be asked for rows until there are none. -/
structure Source (σ : Type) where
  next : σ → Layout → Answer (σ × Layout) (Option Row)
  /-- Back to the first row. -/
  restart : σ → Answer σ Unit
  /-- The first state is further on than the second. -/
  Later : σ → σ → Prop
  later_trans : ∀ {s t u}, Later s t → Later t u → Later s u
  later_wf : WellFounded Later
  next_later : ∀ {s l r t m}, next s l = (.ok (some r), t, m) → Later t s

namespace Source

variable {σ τ α : Type} {M : Type → Type} [Monad M]

/-! ## Searches -/

/-- A search ends with the first thing on which there is a verdict. -/
def searchRound (verdict : α → Option (Except Error Row)) :
    Answer (σ × Layout) (Option α) → Round (σ × Layout) (Answer (σ × Layout) (Option Row))
  | (.error e, s) => .done (.error e, s)
  | (.ok none, s) => .done (.ok none, s)
  | (.ok (some a), s) =>
    match verdict a with
    | some found => .done (found.map some, s)
    | none => .again s

theorem searchRound_leads {verdict : α → Option (Except Error Row)}
    {asked : Answer (σ × Layout) (Option α)} {good : σ × Layout → Prop}
    {ends : Answer (σ × Layout) (Option Row) → Prop}
    (failed : ∀ e s l, asked = (.error e, s, l) → ends (.error e, s, l))
    (last : ∀ s l, asked = (.ok none, s, l) → ends (.ok none, s, l))
    (found : ∀ a s l answer, asked = (.ok (some a), s, l) → verdict a = some answer →
      ends (answer.map some, s, l))
    (again : ∀ a s l, asked = (.ok (some a), s, l) → verdict a = none → good (s, l)) :
    (searchRound verdict asked).Leads good ends := by
  obtain ⟨_ | _ | a, s, l⟩ := asked
  · exact failed _ _ _ rfl
  · exact last _ _ rfl
  · rw [searchRound]
    cases hv : verdict a with
    | some answer => exact found _ _ _ _ rfl hv
    | none => exact again _ _ _ rfl hv

/-- Asks for one thing after the other, of which each leads further on. -/
def searching (next : σ → Layout → Answer (σ × Layout) (Option α)) (Later : σ → σ → Prop)
    (later_wf : WellFounded Later)
    (next_later : ∀ {s l a t m}, next s l = (.ok (some a), t, m) → Later t s)
    (verdict : α → Option (Except Error Row)) :
    Loop (σ × Layout) (Answer (σ × Layout) (Option Row)) where
  round s := searchRound verdict (next s.1 s.2)
  Later s t := Later s.1 t.1
  later_wf := InvImage.wf Prod.fst later_wf
  round_leads _ := searchRound_leads (fun _ _ _ _ => trivial) (fun _ _ _ => trivial)
    (fun _ _ _ _ _ _ => trivial) fun _ _ _ hn _ => next_later hn

/-! ## Scans -/

/-- Whether a row satisfies every predicate; those after the first that fails are not looked
at. -/
def satisfies (row : Row) : List Predicate → Except Error Bool
  | [] => .ok true
  | p :: ps =>
    match p.holds row with
    | .ok true => satisfies row ps
    | .ok false => .ok false
    | .error e => .error e

/-- There is no verdict on the record of a row that does not pass the filter. -/
def matchVerdict (relation : Schema) (filter : List Predicate) (entry : Bytes × Bytes) :
    Option (Except Error Row) :=
  match Tuple.decode relation entry.2 with
  | .error e => some (.error e)
  | .ok t =>
    match satisfies (.base t) filter with
    | .error e => some (.error e)
    | .ok true => some (.ok (.base t))
    | .ok false => none

theorem length_ahead_of_next {store : Store} {c d : Cursor} {l m : Layout}
    {e : Bytes × Bytes} (h : c.next { store with layout := l } = (.ok (some e), d, m)) :
    (d.ahead store).length < (c.ahead store).length := by
  have ha : ∀ c : Cursor, c.ahead { store with layout := l } = c.ahead store :=
    Cursor.ahead_congr rfl
  rw [← ha c, Cursor.ahead_of_next h, ha d]
  exact Nat.lt_succ_self _

/-- Reads entries; the cursor moves behind each of them. -/
def matching (store : Store) (relation : Schema) (filter : List Predicate) :
    Loop (Cursor × Layout) (Answer (Cursor × Layout) (Option Row)) :=
  searching (fun c l => c.next { store with layout := l })
    (fun c d => (c.ahead store).length < (d.ahead store).length)
    (measure fun c : Cursor => (c.ahead store).length).wf length_ahead_of_next
    (matchVerdict relation filter)

/-- The first row ahead that passes the filter. -/
def firstMatch (store : Store) (relation : Schema) (filter : List Predicate)
    (c : Cursor) (l : Layout) : Answer (Cursor × Layout) (Option Row) :=
  (matching store relation filter).run (c, l)

theorem length_ahead_of_firstMatch {store : Store} {relation : Schema} {filter : List Predicate}
    {c d : Cursor} {l m : Layout} {row : Row}
    (h : firstMatch store relation filter c l = (.ok (some row), d, m)) :
    (d.ahead store).length < (c.ahead store).length := by
  refine Loop.run_leads h (fun s => (s.1.ahead store).length ≤ (c.ahead store).length)
    (fun a => ∀ row, a.1 = .ok (some row) → (a.2.1.ahead store).length < (c.ahead store).length)
    (Nat.le_refl _) (fun s hs => ?_) row rfl
  refine searchRound_leads (fun _ _ _ _ => nofun) (fun _ _ _ => nofun) ?found ?again
  case found => exact fun e d l answer hn _ _ _ => Nat.lt_of_lt_of_le (length_ahead_of_next hn) hs
  case again =>
    exact fun e d l hn _ => Nat.le_of_lt (Nat.lt_of_lt_of_le (length_ahead_of_next hn) hs)

/-- The entries that an open scan still has before it. -/
def entriesAhead (store : Store) : Option Cursor → List (Bytes × Bytes)
  | none => []
  | some c => c.ahead store

/-- Without a cursor a scan is not open. -/
@[specialize]
def scanNext (relation : Schema)
    (firstMatch : Cursor → Layout → M (Answer (Cursor × Layout) (Option Row))) :
    Option Cursor → Layout → M (Answer (Option Cursor × Layout) (Option Row))
  | none, l => pure (.error (.scanNotOpen relation.name), none, l)
  | some c, l => do
    let (answer, c, l) ← firstMatch c l
    return (answer, some c, l)

/-- Reads a table through a cursor. -/
def scan (store : Store) (relation : Schema) (filter : List Predicate) :
    Source (Option Cursor) where
  next s l := Id.run (scanNext relation (firstMatch store relation filter) s l)
  restart
    | none => (.error (.scanNotOpen relation.name), none)
    | some c => (.ok (), some c.restart)
  Later s t := (entriesAhead store s).length < (entriesAhead store t).length
  later_trans h h' := Nat.lt_trans h h'
  later_wf := (measure fun s => (entriesAhead store s).length).wf
  next_later {s l r t m} h := by
    cases s with
    | none => cases h
    | some c =>
      have hrow : (firstMatch store relation filter c l).1 = .ok (some r) := congrArg Prod.fst h
      obtain rfl : some (firstMatch store relation filter c l).2.1 = t := congrArg (·.2.1) h
      exact length_ahead_of_firstMatch (Prod.ext hrow rfl)

/-! ## Nested loops -/

/-- A join that keeps the left row it is at. -/
structure LoopState (σ τ : Type) where
  left : σ
  right : τ
  held : Option Row
  exhausted : Bool

/-- There is no verdict on a right row that does not join with the left one. -/
def joinVerdict (on : Predicate) (row r : Row) : Option (Except Error Row) :=
  match on.holdsBetween row r with
  | .error e => some (.error e)
  | .ok true => some (row.combine r)
  | .ok false => none

/-- Reads right rows. -/
def probing (R : Source τ) (on : Predicate) (row : Row) :
    Loop (τ × Layout) (Answer (τ × Layout) (Option Row)) :=
  searching R.next R.Later R.later_wf R.next_later (joinVerdict on row)

/-- Reads the right input up to the next row that joins with a left one. -/
def probe (R : Source τ) (on : Predicate) (row : Row) (t : τ) (l : Layout) :
    Answer (τ × Layout) (Option Row) :=
  (R.probing on row).run (t, l)

/-- The right input is restarted once it has no more rows for the left one. -/
def sweptBack (restart : τ → Answer τ Unit) :
    Answer (τ × Layout) (Option Row) → Answer (τ × Layout) (Option Row)
  | (.ok none, t, l) =>
    match restart t with
    | (.ok (), t) => (.ok none, t, l)
    | (.error e, t) => (.error e, t, l)
  | answer => answer

/-- Probes, and goes back to the first right row at the end. -/
def sweep (R : Source τ) (on : Predicate) (row : Row) (t : τ) (l : Layout) :
    Answer (τ × Layout) (Option Row) :=
  sweptBack R.restart (R.probe on row t l)

/-- A sweep answers as the probe does, unless that comes to the end of the right input. -/
theorem sweep_cases {R : Source τ} {on : Predicate} {row : Row} {t u : τ} {l m : Layout}
    {answer : Except Error (Option Row)} (h : R.sweep on row t l = (answer, u, m)) :
    R.probe on row t l = (answer, u, m)
      ∨ ∃ v back, R.probe on row t l = (.ok none, v, m) ∧ R.restart v = (back, u)
        ∧ answer = back.map fun _ => none := by
  unfold sweep sweptBack at h
  generalize hp : R.probe on row t l = probed at h
  obtain ⟨_ | _ | joined, v, k⟩ := probed
  · exact .inl h
  · refine .inr ⟨v, ?_⟩
    dsimp only at h
    generalize R.restart v = restarted at h ⊢
    obtain ⟨_ | _, w⟩ := restarted <;> (cases h; exact ⟨_, rfl, rfl, rfl⟩)
  · exact .inl h

/-- A left row is held as long as right rows join with it. -/
def heldRound (left : σ) (row : Row) : Answer (τ × Layout) (Option Row) →
    Round (σ × τ × Layout) (Answer (LoopState σ τ × Layout) (Option Row))
  | (.error e, t, l) => .done (.error e, ⟨left, t, none, false⟩, l)
  | (.ok (some joined), t, l) => .done (.ok (some joined), ⟨left, t, some row, false⟩, l)
  | (.ok none, t, l) => .again (left, t, l)

theorem heldRound_leads {left : σ} {row : Row} {answer : Except Error (Option Row)} {t : τ}
    {l : Layout} {good : σ × τ × Layout → Prop}
    {ends : Answer (LoopState σ τ × Layout) (Option Row) → Prop}
    (failed : ∀ e, answer = .error e → ends (.error e, ⟨left, t, none, false⟩, l))
    (joined : ∀ joined, answer = .ok (some joined) →
      ends (.ok (some joined), ⟨left, t, some row, false⟩, l))
    (last : answer = .ok none → good (left, t, l)) :
    (heldRound left row (answer, t, l)).Leads good ends := by
  rcases answer with e | _ | r
  · exact failed e rfl
  · exact last rfl
  · exact joined r rfl

/-- Sweeps the right input for the next left row. -/
@[specialize]
def pullRound (next : σ → Layout → M (Answer (σ × Layout) (Option Row)))
    (sweep : Row → τ → Layout → M (Answer (τ × Layout) (Option Row))) :
    σ × τ × Layout → M (Round (σ × τ × Layout) (Answer (LoopState σ τ × Layout) (Option Row)))
  | (s, t, l) => do
    match ← next s l with
    | (.error e, s, l) => return .done (.error e, ⟨s, t, none, false⟩, l)
    | (.ok none, s, l) => return .done (.ok none, ⟨s, t, none, true⟩, l)
    | (.ok (some row), s, l) => return heldRound s row (← sweep row t l)

theorem pullRound_leads {next : σ → Layout → Answer (σ × Layout) (Option Row)}
    {sweep : Row → τ → Layout → Answer (τ × Layout) (Option Row)} {s : σ} {t : τ} {l : Layout}
    {good : σ × τ × Layout → Prop} {ends : Answer (LoopState σ τ × Layout) (Option Row) → Prop}
    (failed : ∀ e s' m, next s l = (.error e, s', m) → ends (.error e, ⟨s', t, none, false⟩, m))
    (last : ∀ s' m, next s l = (.ok none, s', m) → ends (.ok none, ⟨s', t, none, true⟩, m))
    (swept : ∀ row s' m answer t' k, next s l = (.ok (some row), s', m) →
      sweep row t m = (answer, t', k) → (heldRound s' row (answer, t', k)).Leads good ends) :
    (Id.run (pullRound next sweep (s, t, l))).Leads good ends := by
  rw [pullRound]
  generalize hn : next s l = asked
  obtain ⟨_ | _ | row, s', m⟩ := asked
  · exact failed _ _ _ hn
  · exact last _ _ hn
  · exact swept row s' m _ _ _ hn rfl

/-- Pulls left rows. -/
def pulling (L : Source σ) (R : Source τ) (on : Predicate) :
    Loop (σ × τ × Layout) (Answer (LoopState σ τ × Layout) (Option Row)) where
  round s := Id.run (pullRound L.next (R.sweep on) s)
  Later s t := L.Later s.1 t.1
  later_wf := InvImage.wf Prod.fst L.later_wf
  round_leads _ := pullRound_leads (fun _ _ _ _ => trivial) (fun _ _ _ => trivial)
    fun _ _ _ _ _ _ hn _ => heldRound_leads (fun _ _ => trivial) (fun _ _ => trivial)
      fun _ => L.next_later hn

/-- Pulls left rows until one joins. -/
def pull (L : Source σ) (R : Source τ) (on : Predicate) (s : σ) (t : τ) (l : Layout) :
    Answer (LoopState σ τ × Layout) (Option Row) :=
  (pulling L R on).run (s, t, l)

/-- Goes on with the held left row before another one is pulled. -/
@[specialize]
def joinNext (sweep : Row → τ → Layout → M (Answer (τ × Layout) (Option Row)))
    (pull : σ → τ → Layout → M (Answer (LoopState σ τ × Layout) (Option Row)))
    (s : LoopState σ τ) (l : Layout) : M (Answer (LoopState σ τ × Layout) (Option Row)) :=
  if s.exhausted then return (.ok none, s, l)
  else match s.held with
    | none => pull s.left s.right l
    | some row => do
      match heldRound s.left row (← sweep row s.right l) with
      | .done answer => return answer
      | .again (left, right, l) => pull left right l

/-- The next row of a nested loop. -/
def nextJoined (L : Source σ) (R : Source τ) (on : Predicate) (s : LoopState σ τ) (l : Layout) :
    Answer (LoopState σ τ × Layout) (Option Row) :=
  Id.run (joinNext (R.sweep on) (pull L R on) s l)

theorem nextJoined_leads {L : Source σ} {R : Source τ} {on : Predicate} {s : LoopState σ τ}
    {l : Layout} {answer : Answer (LoopState σ τ × Layout) (Option Row)}
    (h : nextJoined L R on s l = answer)
    (ends : Answer (LoopState σ τ × Layout) (Option Row) → Prop)
    (exhausted : s.exhausted = true → ends (.ok none, s, l))
    (fresh : s.held = none → ends (pull L R on s.left s.right l))
    (held : ∀ row answer t k, s.held = some row → R.sweep on row s.right l = (answer, t, k) →
      (heldRound s.left row (answer, t, k)).Leads (fun u => ends (pull L R on u.1 u.2.1 u.2.2))
        ends) :
    ends answer := by
  rw [← h]
  unfold nextJoined joinNext
  split
  · exact exhausted ‹_›
  · split
    · exact fresh ‹_›
    · rename_i row hrow
      generalize hsweep : R.sweep on row s.right l = swept
      obtain ⟨answer, t, k⟩ := swept
      have hround := held row answer t k hrow hsweep
      show ends (match heldRound s.left row (answer, t, k) with
        | .done answer => answer
        | .again (left, right, l) => pull L R on left right l)
      generalize heldRound s.left row (answer, t, k) = round at hround
      cases round <;> exact hround

/-- A row leads further on from a state that is no less far. -/
theorem later_of_next {S : Source σ} {first s t : σ} {l m : Layout} {row : Row}
    (hs : s = first ∨ S.Later s first) (hn : S.next s l = (.ok (some row), t, m)) :
    S.Later t first := by
  rcases hs with rfl | hs
  · exact S.next_later hn
  · exact S.later_trans (S.next_later hn) hs

theorem later_of_probe {R : Source τ} {on : Predicate} {row joined : Row} {t u : τ}
    {l m : Layout} (h : R.probe on row t l = (.ok (some joined), u, m)) : R.Later u t := by
  refine Loop.run_leads h (fun s => s.1 = t ∨ R.Later s.1 t)
    (fun a => ∀ joined, a.1 = .ok (some joined) → R.Later a.2.1 t) (.inl rfl) (fun s hs => ?_)
    joined rfl
  exact searchRound_leads (fun _ _ _ _ => nofun) (fun _ _ _ => nofun)
    (fun _ _ _ _ hn _ _ _ => later_of_next hs hn) fun _ _ _ hn _ => .inr (later_of_next hs hn)

theorem later_of_sweep {R : Source τ} {on : Predicate} {row joined : Row} {t u : τ}
    {l m : Layout} (h : R.sweep on row t l = (.ok (some joined), u, m)) : R.Later u t := by
  obtain hp | ⟨_, back, -, -, hback⟩ := sweep_cases h
  · exact later_of_probe hp
  · cases back <;> cases hback

theorem later_of_pull {L : Source σ} {R : Source τ} {on : Predicate} {s : σ} {t : τ}
    {joined : Row} {u : LoopState σ τ} {l m : Layout}
    (h : pull L R on s t l = (.ok (some joined), u, m)) : L.Later u.left s := by
  refine Loop.run_leads h (fun v => v.1 = s ∨ L.Later v.1 s)
    (fun a => ∀ joined, a.1 = .ok (some joined) → L.Later a.2.1.left s) (.inl rfl) (fun v hv => ?_)
    joined rfl
  exact pullRound_leads (fun _ _ _ _ => nofun) (fun _ _ _ => nofun) fun _ _ _ _ _ _ hn _ =>
    heldRound_leads (fun _ _ => nofun) (fun _ _ _ _ => later_of_next hv hn)
      fun _ => .inr (later_of_next hv hn)

/-- For each left row all right rows that join with it. -/
def nestedLoop (L : Source σ) (R : Source τ) (on : Predicate) :
    Source (LoopState σ τ) where
  next := nextJoined L R on
  restart s :=
    match L.restart s.left with
    | (.error e, left) => (.error e, { s with left })
    | (.ok (), left) =>
      match R.restart s.right with
      | (.error e, right) => (.error e, { s with left, right })
      | (.ok (), right) => (.ok (), ⟨left, right, none, false⟩)
  Later s t := L.Later s.left t.left ∨ s.left = t.left ∧ R.Later s.right t.right
  later_trans {s t u} h h' := by
    rcases h with h | ⟨h, hr⟩ <;> rcases h' with h' | ⟨h', hr'⟩
    · exact .inl (L.later_trans h h')
    · exact .inl (h' ▸ h)
    · exact .inl (h ▸ h')
    · exact .inr ⟨h.trans h', R.later_trans hr hr'⟩
  later_wf := by
    refine Subrelation.wf (r := InvImage (Prod.Lex L.Later R.Later) fun s => (s.left, s.right))
      ?_ (InvImage.wf _ (Prod.lex ⟨L.Later, L.later_wf⟩ ⟨R.Later, R.later_wf⟩).wf)
    intro s t h
    rcases h with h | ⟨h, hr⟩
    · exact .left _ _ h
    · show Prod.Lex _ _ (s.left, s.right) (t.left, t.right)
      rw [h]
      exact .right _ hr
  next_later {s l r t m} h := by
    refine nextJoined_leads h (fun a => ∀ row, a.1 = .ok (some row) →
      L.Later a.2.1.left s.left ∨ a.2.1.left = s.left ∧ R.Later a.2.1.right s.right)
      (fun _ _ => nofun) (fun _ _ hrow => .inl (later_of_pull (Prod.ext hrow rfl))) ?_ r rfl
    intro row answer u k _ hsweep
    refine heldRound_leads (fun _ _ => nofun) (fun joined hj _ _ => .inr ⟨rfl, ?_⟩)
      fun _ _ hrow => .inl (later_of_pull (Prod.ext hrow rfl))
    subst hj
    exact later_of_sweep hsweep

/-! ## Hash tables -/

/-- A join with the right rows under their keys, and the pairs that the left row it is at
still has to give. -/
structure HashState (σ τ : Type) where
  left : σ
  right : τ
  buckets : List (Datum × Row)
  pending : List (Row × Row)
  exhausted : Bool

/-- The right rows with a key, in the order in which they were read. -/
def bucket (buckets : List (Datum × Row)) (key : Datum) : List Row :=
  (buckets.filter (·.1 = key)).map (·.2)

/-- A right row is put under its key. -/
def collectRound (key : Term) (buckets : List (Datum × Row)) : Answer (τ × Layout) (Option Row) →
    Round (List (Datum × Row) × τ × Layout) (Answer (List (Datum × Row) × τ × Layout) Unit)
  | (.error e, t, l) => .done (.error e, buckets, t, l)
  | (.ok none, t, l) => .done (.ok (), buckets, t, l)
  | (.ok (some row), t, l) =>
    match key.value row with
    | .error e => .done (.error e, buckets, t, l)
    | .ok k => .again (buckets ++ [(k, row)], t, l)

theorem collectRound_leads {key : Term} {buckets : List (Datum × Row)}
    {asked : Answer (τ × Layout) (Option Row)} {good : List (Datum × Row) × τ × Layout → Prop}
    {ends : Answer (List (Datum × Row) × τ × Layout) Unit → Prop}
    (done : ∀ answer t l filled, asked = (answer, t, l) → ends (filled, buckets, t, l))
    (again : ∀ row t l k, asked = (.ok (some row), t, l) → key.value row = .ok k →
      good (buckets ++ [(k, row)], t, l)) :
    (collectRound key buckets asked).Leads good ends := by
  obtain ⟨_ | _ | row, t, l⟩ := asked
  · exact done _ _ _ _ rfl
  · exact done _ _ _ _ rfl
  · rw [collectRound]
    cases hk : key.value row with
    | error e => exact done _ _ _ _ rfl
    | ok k => exact again _ _ _ _ rfl hk

/-- Reads right rows into buckets. -/
def collecting (R : Source τ) (key : Term) :
    Loop (List (Datum × Row) × τ × Layout) (Answer (List (Datum × Row) × τ × Layout) Unit) where
  round | (buckets, t, l) => collectRound key buckets (R.next t l)
  Later s t := R.Later s.2.1 t.2.1
  later_wf := InvImage.wf (fun s : List (Datum × Row) × τ × Layout => s.2.1) R.later_wf
  round_leads _ := collectRound_leads (fun _ _ _ _ _ => trivial) fun _ _ _ _ hn _ => R.next_later hn

/-- Reads all of the right input into buckets, up to a failure. -/
def collect (R : Source τ) (key : Term) (buckets : List (Datum × Row)) (t : τ) (l : Layout) :
    Answer (List (Datum × Row) × τ × Layout) Unit :=
  (R.collecting key).run (buckets, t, l)

/-- Gives the next pending pair, or looks up the bucket of the next left row. -/
@[specialize]
def pairRound (next : σ → Layout → M (Answer (σ × Layout) (Option Row))) (on : Predicate) :
    HashState σ τ × Layout →
      M (Round (HashState σ τ × Layout) (Answer (HashState σ τ × Layout) (Option Row)))
  | (s, l) =>
    match s.pending with
    | (row, r) :: pending => return .done ((row.combine r).map some, { s with pending }, l)
    | [] =>
      if s.exhausted then return .done (.ok none, s, l)
      else do
        match ← next s.left l with
        | (.error e, left, l) => return .done (.error e, { s with left }, l)
        | (.ok none, left, l) => return .done (.ok none, { s with left, exhausted := true }, l)
        | (.ok (some row), left, l) =>
          match on.left.value row with
          | .error e => return .done (.error e, { s with left }, l)
          | .ok key =>
            return .again ({ s with left, pending := (bucket s.buckets key).map (row, ·) }, l)

theorem pairRound_leads {next : σ → Layout → Answer (σ × Layout) (Option Row)} {on : Predicate}
    {s : HashState σ τ} {l : Layout} {good : HashState σ τ × Layout → Prop}
    {ends : Answer (HashState σ τ × Layout) (Option Row) → Prop}
    (pending : ∀ row r pending, s.pending = (row, r) :: pending →
      ends ((row.combine r).map some, { s with pending }, l))
    (exhausted : s.pending = [] → s.exhausted = true → ends (.ok none, s, l))
    (failed : ∀ e found left m, s.pending = [] → next s.left l = (found, left, m) →
      ends (.error e, { s with left }, m))
    (last : ∀ left m, s.pending = [] → next s.left l = (.ok none, left, m) →
      ends (.ok none, { s with left, exhausted := true }, m))
    (again : ∀ row left m key, s.pending = [] → next s.left l = (.ok (some row), left, m) →
      on.left.value row = .ok key →
        good ({ s with left, pending := (bucket s.buckets key).map (row, ·) }, m)) :
    (Id.run (pairRound next on (s, l))).Leads good ends := by
  obtain ⟨left, t, buckets, _ | ⟨⟨row, r⟩, pairs⟩, _ | _⟩ := s
  · rw [pairRound]
    generalize hn : next left l = asked
    obtain ⟨_ | _ | row, left', m⟩ := asked
    · exact failed _ _ _ _ rfl hn
    · exact last _ _ rfl hn
    · show Round.Leads good ends (match on.left.value row with
        | .error e => .done (.error e, ⟨left', t, buckets, [], false⟩, m)
        | .ok key =>
          .again (⟨left', t, buckets, (bucket buckets key).map (row, ·), false⟩, m))
      cases hk : on.left.value row with
      | error e => exact failed _ _ _ _ rfl hn
      | ok key => exact again _ _ _ _ rfl hn hk
  · exact exhausted rfl rfl
  · exact pending _ _ _ rfl
  · exact pending _ _ _ rfl

/-- Pulls left rows, and gives the pairs that they make. -/
def pairing (L : Source σ) (on : Predicate) :
    Loop (HashState σ τ × Layout) (Answer (HashState σ τ × Layout) (Option Row)) where
  round s := Id.run (pairRound L.next on s)
  Later s t := L.Later s.1.left t.1.left
  later_wf := InvImage.wf (fun s : HashState σ τ × Layout => s.1.left) L.later_wf
  round_leads _ := pairRound_leads (fun _ _ _ _ => trivial) (fun _ _ => trivial)
    (fun _ _ _ _ _ _ => trivial) (fun _ _ _ _ => trivial) fun _ _ _ _ _ hn _ => L.next_later hn

/-- Gives the next pair, be it pending or made of left rows that are pulled for it. -/
def nextPaired (L : Source σ) (on : Predicate) (s : HashState σ τ) (l : Layout) :
    Answer (HashState σ τ × Layout) (Option Row) :=
  (pairing L on).run (s, l)

theorem later_of_nextPaired {L : Source σ} {on : Predicate} {s t : HashState σ τ}
    {joined : Row} {l m : Layout} (h : nextPaired L on s l = (.ok (some joined), t, m)) :
    L.Later t.left s.left ∨ t.left = s.left ∧ t.pending.length < s.pending.length := by
  refine Loop.run_leads h (fun u => u.1 = s ∨ L.Later u.1.left s.left)
    (fun a => ∀ joined, a.1 = .ok (some joined) → L.Later a.2.1.left s.left
      ∨ a.2.1.left = s.left ∧ a.2.1.pending.length < s.pending.length)
    (.inl rfl) (fun u hu => ?_) joined rfl
  refine pairRound_leads ?pending (fun _ _ _ => nofun) (fun _ _ _ _ _ _ _ => nofun)
    (fun _ _ _ _ _ => nofun) ?again
  case pending =>
    intro row r pending hp _ _
    rcases hu with rfl | hu
    · exact .inr ⟨rfl, by simp [hp]⟩
    · exact .inl hu
  case again =>
    intro row left m key _ hn _
    exact .inr (later_of_next (hu.imp_left (congrArg HashState.left)) hn)

/-- For each left row its bucket; a restart keeps the buckets. -/
def hash (L : Source σ) (on : Predicate) : Source (HashState σ τ) where
  next := nextPaired L on
  restart s :=
    match L.restart s.left with
    | (.error e, left) => (.error e, { s with left })
    | (.ok (), left) => (.ok (), { s with left, pending := [], exhausted := false })
  Later s t := L.Later s.left t.left ∨ s.left = t.left ∧ s.pending.length < t.pending.length
  later_trans {s t u} h h' := by
    rcases h with h | ⟨h, hr⟩ <;> rcases h' with h' | ⟨h', hr'⟩
    · exact .inl (L.later_trans h h')
    · exact .inl (h' ▸ h)
    · exact .inl (h ▸ h')
    · exact .inr ⟨h.trans h', Nat.lt_trans hr hr'⟩
  later_wf := by
    refine Subrelation.wf
      (r := InvImage (Prod.Lex L.Later Nat.lt) fun s => (s.left, s.pending.length))
      ?_ (InvImage.wf _ (Prod.lex ⟨L.Later, L.later_wf⟩ Nat.lt_wfRel).wf)
    intro s t h
    rcases h with h | ⟨h, hr⟩
    · exact .left _ _ h
    · show Prod.Lex _ _ (s.left, s.pending.length) (t.left, t.pending.length)
      rw [h]
      exact .right _ hr
  next_later := later_of_nextPaired

/-! ## Projections -/

/-- The values of the outputs on a row. -/
def valuesOf (outputs : List Term) (row : Row) : Except Error (List Datum) :=
  outputs.mapM (·.value row)

/-- The outputs instead of the row. -/
def projected (outputs : List Term) : Answer (σ × Layout) (Option Row) →
    Answer (σ × Layout) (Option Row)
  | (.error e, s, l) => (.error e, s, l)
  | (.ok none, s, l) => (.ok none, s, l)
  | (.ok (some row), s, l) => ((valuesOf outputs row).map fun vs => some (.projected vs), s, l)

/-- The outputs on each row; there is no way back. -/
def project (S : Source σ) (outputs : List Term) : Source σ where
  next s l := projected outputs (S.next s l)
  restart s := (.error .projectionNotRestartable, s)
  Later := S.Later
  later_trans := S.later_trans
  later_wf := S.later_wf
  next_later {s l r t m} h := by
    generalize hn : S.next s l = asked at h
    obtain ⟨_ | _ | row, u, k⟩ := asked
    · cases h
    · cases h
    · have hu : u = t := congrArg (·.2.1) h
      exact hu ▸ S.next_later hn

/-! ## All rows at once -/

/-- Every row that is still to come, put through a function. -/
def drain (S : Source σ) (f : Row → Except Error α) (s : σ) (l : Layout) :
    Answer Layout (List α) :=
  match _h : S.next s l with
  | (.error e, _, l) => (.error e, l)
  | (.ok none, _, l) => (.ok [], l)
  | (.ok (some row), s, l) =>
    match f row with
    | .error e => (.error e, l)
    | .ok a =>
      match S.drain f s l with
      | (rows, l) => (rows.map (a :: ·), l)
termination_by S.later_wf.wrap s
decreasing_by exact S.next_later _h

end Source

end RelQuery
