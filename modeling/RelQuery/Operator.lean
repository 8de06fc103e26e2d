/-
  Operators: query plans ready to be run, with the state of a run.

  An operator is acquired, asked for rows, perhaps restarted, and released; the calls may come
  in any order. A run's state belongs to its operator: a scan has a cursor when it is open, a
  join has the states of its inputs and what it remembers between rows.
-/
import RelQuery.Operator.Source
import RelQuery.Plan

namespace RelQuery

inductive Operator where
  | scan (relation : Schema) (filter : List Predicate)
  | nestedLoop (on : Predicate) (left right : Operator)
  | hash (on : Predicate) (left right : Operator)
  | project (outputs : List Term) (input : Operator)

namespace Operator

/-! ## From plans -/

/-- Whether a run can go back to its first row. -/
def restartable : Operator → Bool
  | scan _ _ => true
  | nestedLoop _ left right => left.restartable && right.restartable
  | hash _ left _ => left.restartable
  | project _ _ => false

/-- The operator of a query plan. A nested loop has to restart its right input. -/
def ofPlan : Plan → Except Error Operator
  | .scan r filter => .ok (scan r filter)
  | .join strategy on left right => do
    let left ← ofPlan left
    let right ← ofPlan right
    match strategy with
    | .hash => return hash on left right
    | .nestedLoop =>
      if right.restartable then return nestedLoop on left right
      else throw (.rightNotRestartable on.text)
  | .project outputs input => do return project outputs (← ofPlan input)
  | p => .error (.notAQueryPlan p.text)

/-! ## Runs -/

/-- What a run remembers. -/
def State : Operator → Type
  | scan _ _ => Option Store.Cursor
  | nestedLoop _ left right => Source.LoopState left.State right.State
  | hash _ left right => Source.HashState left.State right.State
  | project _ input => input.State

/-- A run that was never acquired. -/
def initial : (op : Operator) → op.State
  | scan _ _ => (none : Option Store.Cursor)
  | nestedLoop _ left right => Source.LoopState.mk left.initial right.initial none false
  | hash _ left right => Source.HashState.mk left.initial right.initial [] [] false
  | project _ input => input.initial

/-- The rows of a run over a store. -/
def source (store : Store) : (op : Operator) → Source op.State
  | scan r filter => Source.scan store r filter
  | nestedLoop on left right => Source.nestedLoop (left.source store) (right.source store) on
  | hash on left _ => Source.hash (left.source store) on
  | project outputs input => Source.project (input.source store) outputs

/-- Opens the tables of a run, inputs first and left before right. A hash join also has all of its
right input collected. -/
@[specialize]
def acquireWith {M : Type → Type} [Monad M] (store : Store)
    (collect : (op : Operator) → Term → op.State → Store.Layout →
      M (Answer (List (Datum × Row) × op.State × Store.Layout) Unit)) :
    (op : Operator) → op.State → Store.Layout → M (Answer (op.State × Store.Layout) Unit)
  | scan r _, c, l =>
    match store.cursor r.name with
    | .error e => return (.error e, c, l)
    | .ok c => return (.ok (), some c, l)
  | nestedLoop _ left right, s, l => do
    match ← left.acquireWith store collect s.left l with
    | (.error e, t, l) => return (.error e, { s with left := t }, l)
    | (.ok (), t, l) =>
      let (answer, u, l) ← right.acquireWith store collect s.right l
      return (answer, { s with left := t, right := u }, l)
  | hash on left right, s, l => do
    match ← left.acquireWith store collect s.left l with
    | (.error e, t, l) => return (.error e, { s with left := t }, l)
    | (.ok (), t, l) =>
      match ← right.acquireWith store collect s.right l with
      | (.error e, u, l) => return (.error e, { s with left := t, right := u }, l)
      | (.ok (), u, l) =>
        let (answer, buckets, u, l) ← collect right on.right u l
        return (answer, { s with left := t, right := u, buckets }, l)
  | project _ input, s, l => input.acquireWith store collect s l

/-- Opens the tables of a run, where right inputs are collected into empty buckets. -/
def acquire (store : Store) (op : Operator) (s : op.State) (l : Store.Layout) :
    Answer (op.State × Store.Layout) Unit :=
  Id.run (op.acquireWith store (fun op key => (op.source store).collect key []) s l)

section Acquire

variable {store : Store} {l : Store.Layout} {on : Predicate} {left right : Operator}

theorem acquire_scan {r : Schema} {filter : List Predicate} (c : (scan r filter).State) :
    (scan r filter).acquire store c l = match store.cursor r.name with
      | .error e => (.error e, c, l)
      | .ok c => (.ok (), some c, l) := by
  unfold acquire acquireWith
  cases store.cursor r.name <;> rfl

theorem acquire_nestedLoop (s : (nestedLoop on left right).State) :
    (nestedLoop on left right).acquire store s l = match left.acquire store s.left l with
      | (.error e, t, l) => (.error e, { s with left := t }, l)
      | (.ok (), t, l) =>
        match right.acquire store s.right l with
        | (answer, u, l) => (answer, { s with left := t, right := u }, l) := rfl

theorem acquire_hash (s : (hash on left right).State) :
    (hash on left right).acquire store s l = match left.acquire store s.left l with
      | (.error e, t, l) => (.error e, { s with left := t }, l)
      | (.ok (), t, l) =>
        match right.acquire store s.right l with
        | (.error e, u, l) => (.error e, { s with left := t, right := u }, l)
        | (.ok (), u, l) =>
          match (right.source store).collect on.right [] u l with
          | (answer, buckets, u, l) => (answer, { s with left := t, right := u, buckets }, l) :=
  rfl

end Acquire

/-- Lets go of the tables and of everything remembered. -/
def release : (op : Operator) → op.State → op.State
  | scan _ _, _ => (none : Option Store.Cursor)
  | nestedLoop _ left right, s =>
    Source.LoopState.mk (left.release s.left) (right.release s.right) none false
  | hash _ left right, s =>
    Source.HashState.mk (left.release s.left) (right.release s.right) [] [] false
  | project _ input, s => input.release s

theorem release_eq_initial (op : Operator) (s : op.State) : op.release s = op.initial := by
  induction op with
  | scan => rfl
  | nestedLoop on left right ihl ihr => simp only [release, initial, ihl, ihr]; rfl
  | hash on left right ihl ihr => simp only [release, initial, ihl, ihr]; rfl
  | project outputs input ih => exact ih s

/-- A release with its answer. Every input is released, even after one that could not be, and the
first failure is the answer. -/
def close : (op : Operator) → op.State → Except Error Unit × op.State
  | scan _ _, _ => (.ok (), (none : Option Store.Cursor))
  | nestedLoop _ left right, s =>
    match left.close s.left, right.close s.right with
    | (.error e, t), (_, u) => (.error e, Source.LoopState.mk t u none false)
    | (.ok (), t), (answer, u) => (answer, Source.LoopState.mk t u none false)
  | hash _ left right, s =>
    match left.close s.left, right.close s.right with
    | (.error e, t), (_, u) => (.error e, Source.HashState.mk t u [] [] false)
    | (.ok (), t), (answer, u) => (answer, Source.HashState.mk t u [] [] false)
  | project _ input, s => input.close s

/-- Nothing that is released can fail to be. -/
theorem close_eq_release (op : Operator) (s : op.State) : op.close s = (.ok (), op.release s) := by
  induction op with
  | scan => rfl
  | nestedLoop on left right ihl ihr => simp only [close, release, ihl, ihr]
  | hash on left right ihl ihr => simp only [close, release, ihl, ihr]
  | project outputs input ih => exact ih s

/-- The names and types of the columns of a projection. -/
def columns? : Operator → Option (List (String × Option Ty))
  | project outputs _ => some (outputs.map fun t => (t.text, t.type?))
  | _ => none

end Operator

end RelQuery
