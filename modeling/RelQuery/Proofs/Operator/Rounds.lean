/-
  Loops that come to an end: what operators do, by a clock that bounds the rounds of every loop.

  A round takes one from the clock, and whatever is asked within the round has the clock that is
  left. There is no answer once the clock has run out, so a call that answers by some clock has done
  finitely much. Rounds, and what is done between the loops, are those of the operators, in the
  monad of what may be missing. Whatever the state of a run and whatever the store holds, a call for
  a row answers by every clock that is long enough, and so does an opening; the answer is the one
  that the operator gives (`Operator.ends_next`, `Operator.ends_acquire`).

  The induction goes down the order in which rounds lead on (`Loop.Later`), which is one of numbers
  for a scan and lexicographic for joins. It gives no number of rounds: a nested loop goes through
  its right input as often as there are left rows, and how many are left is not known to it.
-/
import Mathlib.Order.Filter.AtTopBot.Basic
import RelQuery.Operator

namespace RelQuery

open Store (Layout Cursor)
open Filter (atTop)

variable {σ τ α β : Type}

/-- What holds after every long enough clock has lost a round holds by every long enough clock. -/
theorem eventually_of_round {P : ℕ → Prop} (h : ∀ᶠ n in atTop, P (n + 1)) : ∀ᶠ n in atTop, P n := by
  rw [← Filter.map_add_atTop_eq_nat 1]
  exact h

theorem eventually_map {x : ℕ → Option α} {a : α} (h : ∀ᶠ n in atTop, x n = some a) (f : α → β) :
    ∀ᶠ n in atTop, (x n).map f = some (f a) := by
  filter_upwards [h] with n hn
  rw [hn, Option.map_some]

theorem eventually_bind {x : ℕ → Option α} {f : ℕ → α → Option β} {a : α} {b : β}
    (hx : ∀ᶠ n in atTop, x n = some a) (hf : ∀ᶠ n in atTop, f n a = some b) :
    ∀ᶠ n in atTop, (x n).bind (f n) = some b := by
  filter_upwards [hx, hf] with n hn hfn
  rw [hn, Option.bind_some, hfn]

/-! ## Loops by the clock -/

namespace Loop

/-- A loop by a clock. -/
def runIn (round : ℕ → σ → Option (Round σ α)) : ℕ → σ → Option α
  | 0, _ => none
  | n + 1, s =>
    (round n s).bind fun
      | .done answer => some answer
      | .again t => runIn round n t

/-- If its rounds come to an end, a loop does. -/
theorem ends_run (L : Loop σ α) {round : ℕ → σ → Option (Round σ α)}
    (h : ∀ s, ∀ᶠ n in atTop, round n s = some (L.round s)) (s : σ) :
    ∀ᶠ n in atTop, runIn round n s = some (L.run s) := by
  induction s using L.later_wf.induction with
  | _ s ih =>
    refine eventually_of_round ?_
    cases hr : L.round s with
    | done answer =>
      rw [run_of_done hr]
      exact eventually_bind (hr ▸ h s) (.of_forall fun _ => rfl)
    | again t =>
      rw [run_of_again hr]
      refine eventually_bind (hr ▸ h s) ?_
      exact ih t (later_of_again hr)

end Loop

/-! ## Sources by the clock -/

namespace Source

/-- Calls for a row by a clock. -/
abbrev Clocked (σ : Type) := ℕ → σ → Layout → Option (Answer (σ × Layout) (Option Row))

/-- By every long enough clock the calls answer as the source does. -/
def Clocked.Ends (ask : Clocked σ) (S : Source σ) : Prop :=
  ∀ s l, ∀ᶠ n in atTop, ask n s l = some (S.next s l)

def searchIn (ask : ℕ → σ → Layout → Option (Answer (σ × Layout) (Option α)))
    (verdict : α → Option (Except Error Row)) : Clocked σ := fun n s l =>
  Loop.runIn (fun n s => (ask n s.1 s.2).map (searchRound verdict)) n (s, l)

/-! ### Scans -/

def firstMatchIn (store : Store) (relation : Schema) (filter : List Predicate) : Clocked Cursor :=
  searchIn (fun _ c l => some (c.next { store with layout := l })) (matchVerdict relation filter)

def scanIn (store : Store) (relation : Schema) (filter : List Predicate) :
    Clocked (Option Cursor) := fun n =>
  scanNext relation (firstMatchIn store relation filter n)

theorem ends_firstMatch (store : Store) (relation : Schema) (filter : List Predicate)
    (c : Cursor) (l : Layout) : ∀ᶠ n in atTop, firstMatchIn store relation filter n c l
      = some (firstMatch store relation filter c l) :=
  (matching store relation filter).ends_run (fun _ => .of_forall fun _ => rfl) (c, l)

theorem Clocked.Ends.scan (store : Store) (relation : Schema) (filter : List Predicate) :
    (scanIn store relation filter).Ends (Source.scan store relation filter) := by
  intro s l
  cases s with
  | none => exact .of_forall fun _ => rfl
  | some c =>
    exact eventually_bind (ends_firstMatch store relation filter c l) (.of_forall fun _ => rfl)

/-! ### Nested loops -/

section NestedLoop

variable (askL : Clocked σ) (askR : Clocked τ) (restart : τ → Answer τ Unit) (on : Predicate)

def sweepIn (row : Row) : Clocked τ := fun n t l =>
  (searchIn askR (joinVerdict on row) n t l).map (sweptBack restart)

def pullIn : ℕ → σ → τ → Layout → Option (Answer (LoopState σ τ × Layout) (Option Row)) :=
  fun n s t l =>
    Loop.runIn (fun n => pullRound (askL n) fun row => sweepIn askR restart on row n) n (s, t, l)

def nextJoinedIn : Clocked (LoopState σ τ) := fun n =>
  joinNext (fun row => sweepIn askR restart on row n) (pullIn askL askR restart on n)

variable {askL askR on} {L : Source σ} {R : Source τ}

theorem Clocked.Ends.sweep (hR : askR.Ends R) (row : Row) (t : τ) (l : Layout) :
    ∀ᶠ n in atTop, sweepIn askR R.restart on row n t l = some (R.sweep on row t l) :=
  eventually_map ((R.probing on row).ends_run (fun s => eventually_map (hR s.1 s.2) _) (t, l)) _

theorem Clocked.Ends.pull (hL : askL.Ends L) (hR : askR.Ends R) (s : σ) (t : τ) (l : Layout) :
    ∀ᶠ n in atTop, pullIn askL askR R.restart on n s t l = some (Source.pull L R on s t l) := by
  refine (pulling L R on).ends_run (fun u => ?_) (s, t, l)
  obtain ⟨s, t, l⟩ := u
  have hasked := hL s l
  simp only [pulling, pullRound]
  generalize L.next s l = asked at hasked
  obtain ⟨_ | _ | row, s, l⟩ := asked
  · exact eventually_bind hasked (.of_forall fun _ => rfl)
  · exact eventually_bind hasked (.of_forall fun _ => rfl)
  · exact eventually_bind hasked (eventually_bind (hR.sweep row t l) (.of_forall fun _ => rfl))

theorem Clocked.Ends.nestedLoop (hL : askL.Ends L) (hR : askR.Ends R) :
    (nextJoinedIn askL askR R.restart on).Ends (Source.nestedLoop L R on) := by
  rintro ⟨left, right, held, _ | _⟩ l
  · cases held with
    | none => exact hL.pull hR left right l
    | some row =>
      have hswept : ∀ᶠ n in atTop, sweepIn askR R.restart on row n right l
          = some (R.sweep on row right l) := hR.sweep row right l
      simp only [nextJoinedIn, Source.nestedLoop, nextJoined, joinNext]
      generalize R.sweep on row right l = swept at hswept
      obtain ⟨_ | _ | joined, t, k⟩ := swept
      · exact eventually_bind hswept (.of_forall fun _ => rfl)
      · exact eventually_bind hswept (hL.pull hR left t k)
      · exact eventually_bind hswept (.of_forall fun _ => rfl)
  · exact .of_forall fun _ => rfl

end NestedLoop

/-! ### Hash tables -/

section Hash

variable (ask : Clocked σ) (on : Predicate) (key : Term)

def nextPairedIn : Clocked (HashState σ τ) := fun n s l =>
  Loop.runIn (fun n => pairRound (ask n) on) n (s, l)

def collectIn (n : ℕ) (buckets : List (Datum × Row)) (t : σ) (l : Layout) :
    Option (Answer (List (Datum × Row) × σ × Layout) Unit) :=
  Loop.runIn (fun n s => (ask n s.2.1 s.2.2).map (collectRound key s.1)) n (buckets, t, l)

variable {ask on} {S : Source σ}

theorem Clocked.Ends.hash (h : ask.Ends S) :
    (nextPairedIn (τ := τ) ask on).Ends (Source.hash S on) := by
  intro s l
  refine (pairing S on).ends_run (fun u => ?_) (s, l)
  obtain ⟨⟨left, right, buckets, _ | ⟨pair, pairs⟩, _ | _⟩, l⟩ := u
  · have hasked := h left l
    simp only [pairing, pairRound]
    generalize S.next left l = asked at hasked
    obtain ⟨_ | _ | row, left, l⟩ := asked
    · exact eventually_bind hasked (.of_forall fun _ => rfl)
    · exact eventually_bind hasked (.of_forall fun _ => rfl)
    · refine eventually_bind hasked (.of_forall fun _ => ?_)
      dsimp only [bind]
      cases on.left.value row <;> rfl
  · exact .of_forall fun _ => rfl
  · exact .of_forall fun _ => rfl
  · exact .of_forall fun _ => rfl

theorem Clocked.Ends.collect (h : ask.Ends S) (key : Term) (buckets : List (Datum × Row)) (t : σ)
    (l : Layout) :
    ∀ᶠ n in atTop, collectIn ask key n buckets t l = some (S.collect key buckets t l) :=
  (S.collecting key).ends_run (fun s => eventually_map (h s.2.1 s.2.2) _) (buckets, t, l)

end Hash

/-! ### Projections -/

def projectIn (ask : Clocked σ) (outputs : List Term) : Clocked σ := fun n s l =>
  (ask n s l).map (projected outputs)

theorem Clocked.Ends.project {ask : Clocked σ} {S : Source σ} (h : ask.Ends S)
    (outputs : List Term) : (projectIn ask outputs).Ends (Source.project S outputs) :=
  fun s l => eventually_map (h s l) _

end Source

/-! ## Operators by the clock -/

namespace Operator

/-- A call for a row by a clock. -/
def nextIn (store : Store) : (op : Operator) → Source.Clocked op.State
  | scan r filter => Source.scanIn store r filter
  | nestedLoop on left right =>
    Source.nextJoinedIn (left.nextIn store) (right.nextIn store) (right.source store).restart on
  | hash on left _ => Source.nextPairedIn (left.nextIn store) on
  | project outputs input => Source.projectIn (input.nextIn store) outputs

/-- An opening by a clock. -/
def acquireIn (store : Store) (op : Operator) (n : ℕ) (s : op.State) (l : Layout) :
    Option (Answer (op.State × Layout) Unit) :=
  op.acquireWith store (fun op key => Source.collectIn (op.nextIn store) key n []) s l

/-- Every call for a row comes to an end. -/
theorem ends_next (store : Store) (op : Operator) : (op.nextIn store).Ends (op.source store) := by
  induction op with
  | scan r filter => exact .scan store r filter
  | nestedLoop on left right ihl ihr => exact ihl.nestedLoop ihr
  | hash on left right ihl ihr => exact ihl.hash
  | project outputs input ih => exact ih.project outputs

/-- So does every opening. -/
theorem ends_acquire (store : Store) (op : Operator) (s : op.State) (l : Layout) :
    ∀ᶠ n in atTop, op.acquireIn store n s l = some (op.acquire store s l) := by
  induction op generalizing l with
  | scan r filter =>
    refine .of_forall fun _ => ?_
    rw [acquire_scan, acquireIn, acquireWith]
    cases store.cursor r.name <;> rfl
  | nestedLoop on left right ihl ihr =>
    have hleft := ihl s.left l
    simp only [acquire_nestedLoop]
    generalize left.acquire store s.left l = opened at hleft
    obtain ⟨_ | _, t, m⟩ := opened
    · exact eventually_bind hleft (.of_forall fun _ => rfl)
    · exact eventually_bind hleft (eventually_bind (ihr s.right m) (.of_forall fun _ => rfl))
  | hash on left right ihl ihr =>
    have hleft := ihl s.left l
    simp only [acquire_hash]
    generalize left.acquire store s.left l = opened at hleft
    obtain ⟨_ | _, t, m⟩ := opened
    · exact eventually_bind hleft (.of_forall fun _ => rfl)
    · refine eventually_bind hleft ?_
      have hright := ihr s.right m
      dsimp only
      generalize right.acquire store s.right m = opened at hright
      obtain ⟨_ | _, u, k⟩ := opened
      · exact eventually_bind hright (.of_forall fun _ => rfl)
      · have hfilled := (ends_next store right).collect on.right [] u k
        exact eventually_bind hright (eventually_bind hfilled (.of_forall fun _ => rfl))
  | project outputs input ih => exact ih s l

end Operator

end RelQuery
