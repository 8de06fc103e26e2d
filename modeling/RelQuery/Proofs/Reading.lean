/-
  What readings of a database give, whatever the layout of its store and the journal so far, and
  what actions give and leave behind.

  Main statements: a sequence of readings that give something gives it (`Reading.Gives.bind`), and
  an action that only reads leaves the database but for the layout (`Action.after_reading`).
-/
import RelQuery.Database
import RelQuery.Proofs.Except

namespace RelQuery

open Log (Journal Level report)

namespace Reading

variable {α β : Type}

/-- The result of a reading. -/
def result (x : Reading α) (l : Store.Layout) (j : Journal) : Except Error α :=
  (x.run l j).1.1

/-- The result is this one on every layout and with every journal. -/
def Gives (x : Reading α) (r : Except Error α) : Prop := ∀ l j, x.result l j = r

/-- What comes after a reading starts from the layout and the journal that it leaves. -/
theorem run_bind (x : Reading α) (f : α → Reading β) (l : Store.Layout) (j : Journal) :
    (x >>= f).run l j = ExceptT.bindCont f (x.run l j).1.1 (x.run l j).1.2 (x.run l j).2 := rfl

namespace Gives

theorem pure (a : α) : Gives (Pure.pure a : Reading α) (.ok a) := fun _ _ => rfl

theorem throw (e : Error) : Gives (MonadExcept.throw e : Reading α) (.error e) := fun _ _ => rfl

theorem report (level : Level) (text : String) : Gives (Log.report level text) (.ok ()) :=
  fun _ _ => rfl

theorem ofExcept (r : Except Error α) : Gives (MonadExcept.ofExcept r) r := by
  cases r with
  | ok a => exact pure a
  | error e => exact throw e

theorem of {f : Store.Layout → Except Error α × Store.Layout} {r : Except Error α}
    (h : ∀ l, (f l).1 = r) : Gives (Reading.of f) r := fun l _ => h l

/-- After a reading that gives a value, what is read with it counts. -/
theorem bind {x : Reading α} {f : α → Reading β} {a : α} {r : Except Error β}
    (hx : x.Gives (.ok a)) (hf : (f a).Gives r) : (x >>= f).Gives r := by
  intro l j
  have hx : (x.run l j).1.1 = .ok a := hx l j
  rw [result, run_bind, hx]
  exact hf _ _

theorem bind_error {x : Reading α} {f : α → Reading β} {e : Error} (hx : x.Gives (.error e)) :
    (x >>= f).Gives (.error e) := by
  intro l j
  have hx : (x.run l j).1.1 = .error e := hx l j
  rw [result, run_bind, hx]
  rfl

/-- A sequence of readings gives what the sequence of their results is. -/
theorem andThen {x : Reading α} {f : α → Reading β} {r : Except Error α} {g : α → Except Error β}
    (hx : x.Gives r) (hf : ∀ a, r = .ok a → (f a).Gives (g a)) : (x >>= f).Gives (r >>= g) := by
  cases r with
  | error e => exact hx.bind_error
  | ok a => exact hx.bind (hf a rfl)

/-- Readings of a list one after the other give what they give one by one. -/
theorem mapM {f : α → Reading β} {g : α → Except Error β} (h : ∀ a, (f a).Gives (g a))
    (as : List α) : (as.mapM f).Gives (as.mapM g) := by
  induction as with
  | nil => exact pure []
  | cons a as ih =>
    rw [List.mapM_cons, List.mapM_cons]
    exact (h a).andThen fun b _ => ih.andThen fun bs _ => pure (b :: bs)

end Gives

/-- If the reading fails, then with such an error. -/
def FailsOnly (P : Error → Prop) (x : Reading α) : Prop :=
  ∀ l j, RelQuery.FailsOnly P (x.result l j)

theorem Gives.failsOnly {P : Error → Prop} {x : Reading α} {r : Except Error α} (hx : x.Gives r)
    (hr : RelQuery.FailsOnly P r) : x.FailsOnly P := by
  intro l j
  rwa [hx l j]

theorem FailsOnly.bind {P : Error → Prop} {x : Reading α} {f : α → Reading β}
    (hx : x.FailsOnly P) (hf : ∀ a, (f a).FailsOnly P) : (x >>= f).FailsOnly P := by
  intro l j e he
  rw [result, run_bind] at he
  have hx : ∀ e, (x.run l j).1.1 = .error e → P e := hx l j
  generalize (x.run l j).1.1 = r at he hx
  cases r with
  | error e' =>
    cases he
    exact hx e rfl
  | ok a => exact hf a _ _ e he

/-- A sequence that gives a value is one of two readings that do. -/
theorem exists_of_bind {x : Reading α} {f : α → Reading β} {l : Store.Layout} {j : Journal} {b : β}
    (h : (x >>= f).result l j = .ok b) :
    ∃ a m k, x.result l j = .ok a ∧ (f a).result m k = .ok b := by
  rw [result, run_bind] at h
  generalize hx : (x.run l j).1.1 = r at h
  cases r with
  | error e => cases h
  | ok a => exact ⟨a, _, _, hx, h⟩

theorem result_ofExcept (r : Except Error α) (l : Store.Layout) (j : Journal) :
    result (MonadExcept.ofExcept r) l j = r := Gives.ofExcept r l j

end Reading

/-- The database with another layout of its store. -/
def Database.withLayout (db : Database) (layout : Store.Layout) : Database :=
  { db with store := { db.store with layout } }

namespace Action

variable {α β : Type}

/-- The result of an action. -/
def result (x : Action α) (db : Database) (j : Journal) : Except Error α := (x.run db j).1.1

/-- The database that an action leaves. -/
def after (x : Action α) (db : Database) (j : Journal) : Database := (x.run db j).1.2

/-- The journal that an action leaves. -/
def journal (x : Action α) (db : Database) (j : Journal) : Journal := (x.run db j).2

section

variable (x : Action α) (f : α → Action β) (db : Database) (j : Journal)

theorem run_bind :
    (x >>= f).run db j = ExceptT.bindCont f (x.result db j) (x.after db j) (x.journal db j) := rfl

variable {x f db j}

/-- After an action that gives a value comes what is done with it. -/
theorem bind_of_ok {a : α} (h : x.result db j = .ok a) :
    (x >>= f).result db j = (f a).result (x.after db j) (x.journal db j)
      ∧ (x >>= f).after db j = (f a).after (x.after db j) (x.journal db j) := by
  have hrun := run_bind x f db j
  rw [h] at hrun
  exact ⟨congrArg (·.1.1) hrun, congrArg (·.1.2) hrun⟩

/-- Nothing comes after an action that fails. -/
theorem bind_of_error {e : Error} (h : x.result db j = .error e) :
    (x >>= f).result db j = .error e ∧ (x >>= f).after db j = x.after db j := by
  have hrun := run_bind x f db j
  rw [h] at hrun
  exact ⟨congrArg (·.1.1) hrun, congrArg (·.1.2) hrun⟩

end

theorem run_get (f : Database → Action α) (db : Database) (j : Journal) :
    (getThe Database >>= f : Action α).run db j = (f db).run db j := rfl

/-- What only reads leaves the database but for the layout. -/
theorem after_reading (f : Database → Reading α) (db : Database) (j : Journal) :
    ∃ l, (Action.reading f).after db j = db.withLayout l := ⟨_, rfl⟩

end Action

end RelQuery
