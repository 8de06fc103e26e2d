/-
  Statements that fail or only read change nothing: neither the catalog nor a partition nor the
  counter for new keys.

  Every check comes before the first write, and the writes that create, drop or fill a relation
  cannot fail in a state in which the catalog and the partitions are in step. So what leaves more
  than another layout has succeeded, and is a change (`Statement.after_cases`).

  Main statement: `Session.Reachable.unchanged`.
-/
import RelQuery.Proofs.Database

namespace RelQuery

namespace Database

/-- The second database has the same relations, the same partitions with the same entries, and
gives the same number next. -/
structure SameContents (db db' : Database) : Prop where
  catalog : db'.catalog = db.catalog
  partitions : db'.store.partitions = db.store.partitions
  contents : ∀ partition, db'.store.contents partition = db.store.contents partition
  nextId : db'.store.nextId = db.store.nextId

theorem sameContents_withLayout (db : Database) (l : Store.Layout) :
    db.SameContents (db.withLayout l) := ⟨rfl, rfl, fun _ => rfl, rfl⟩

/-- No change comes from a request that only reads. -/
theorem Changes.isRead_eq_false {db db' : Database} {request : Request}
    (h : db.Changes request db') : request.isRead = false := by
  cases h <;> rfl

end Database

namespace Session

variable {fits : Request → Prop} {db : Database}

/-- A statement that fails, with any error, or only reads (`Request.isRead`), leaves the contents of
a `Reachable` database as they were (`SameContents`). -/
theorem Reachable.unchanged (h : Reachable fits db) (statement : Statement) (j : Log.Journal)
    (hno : (∃ e, statement.run.result db j = .error e)
      ∨ ∃ r, statement.request? = .ok r ∧ r.isRead = true) :
    db.SameContents (statement.run.after db j) := by
  rcases statement.after_cases h.inStep j with ⟨⟨l, hl⟩, -⟩ | ⟨r, l, result, hr, hok, hchanges⟩
  · rw [hl]
    exact db.sameContents_withLayout l
  · exfalso
    rcases hno with ⟨e, he⟩ | ⟨r', hr', hread⟩
    · rw [hok] at he
      cases he
    · rw [hr] at hr'
      cases hr'
      rw [hchanges.isRead_eq_false] at hread
      cases hread

/-- An insertion whose second row has a value of the wrong type leaves no trace of the first, and
neither does asking for the rows. -/
theorem unchanged_withNumbers :
    (Statement.request (.insert "a" [[.int 7], [.string "7"]])).run.result withNumbers []
        = .error (.typeMismatch 0 .integer .string)
      ∧ withNumbers.SameContents
        ((Statement.request (.insert "a" [[.int 7], [.string "7"]])).run.after withNumbers [])
      ∧ withNumbers.SameContents
        ((Statement.request (.select ⟨["a"], [], [], false, none⟩)).run.after withNumbers []) := by
  have hfails :
      (Statement.request (.insert "a" [[.int 7], [.string "7"]])).run.result withNumbers []
        = .error (.typeMismatch 0 .integer .string) := rfl
  exact ⟨hfails, reachable_withNumbers.unchanged _ [] (.inl ⟨_, hfails⟩),
    reachable_withNumbers.unchanged _ [] (.inr ⟨_, rfl, rfl⟩)⟩

end Session

end RelQuery
