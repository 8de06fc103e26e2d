/-
  Statements about different relations can be exchanged.

  Neither of two statements that create, drop or fill different relations has a part in what the
  other answers, as that depends on the schema under the other's name. Run in either order they need
  not leave the same database: rows without a primary key are given numbers as they come. But the
  two databases are alike, so nobody can tell them apart by any statements that follow.

  Main statement: `Session.Attained.answers_exchanged`.
-/
import RelQuery.Proofs.Query.Select
import RelQuery.Proofs.Statement.Alike

namespace RelQuery.Session

open Log (Journal)

variable {db : Database} {n : Nat} {fits : Request → Prop} {first second : Statement}
  {r r' : Request} {name name' : String}

namespace Statement

theorem agreeOn_of_ne (hstep : db.InStep) {statement : Statement} {j : Journal}
    (hr : statement.request? = .ok r) (htarget : r.target? = some name) (hne : name' ≠ name) :
    db.AgreeOn (statement.run.after db j) name' := by
  refine agreeOn_other hstep fun s hs hsame => ?_
  cases hr.symm.trans hs
  cases htarget.symm.trans hsame
  exact hne rfl

/-- Two statements about different relations leave alike databases in either order. -/
theorem alike_exchanged (h : Attained (fun _ => True) n db) (hfirst : first.request? = .ok r)
    (hsecond : second.request? = .ok r') (hname : r.target? = some name)
    (hname' : r'.target? = some name') (hne : name ≠ name') {j j' : Journal}
    (hbound : n + first.numbers db j + second.numbers db j' < 2 ^ 64) (k k' : Journal) :
    (second.run.after (first.run.after db j) k).Alike
      (first.run.after (second.run.after db j') k') := by
  have hafter := h.executed first j fun _ _ _ => trivial
  have hafter' := h.executed second j' fun _ _ _ => trivial
  have hother : ∀ {n db j q}, Attained (fun _ => True) n db → q ≠ name →
      db.AgreeOn (first.run.after db j) q := fun h => agreeOn_of_ne h.inStep hfirst hname
  have hother' : ∀ {n db j q}, Attained (fun _ => True) n db → q ≠ name' →
      db.AgreeOn (second.run.after db j) q := fun h => agreeOn_of_ne h.inStep hsecond hname'
  refine ⟨?_, fun q => ?_⟩
  · rw [config_after hafter.inStep, config_after h.inStep, config_after hafter'.inStep,
      config_after h.inStep]
  · by_cases hq : q = name
    · -- Only the first statement has a part in its name, and it runs where this is the same.
      subst hq
      have hsame := agreeOn_target (j := j) (hother' h hne) h hafter' hfirst hname (by omega)
        (by omega) k'
      exact (hother' hafter hne).symm.trans hsame
    · by_cases hq' : q = name'
      · subst hq'
        have hsame := agreeOn_target (j := j') (hother h hq) h hafter hsecond hname' (by omega)
          (by omega) k
        exact hsame.symm.trans (hother hafter' hq)
      · exact ((hother h hq).trans (hother' hafter hq')).symm.trans
          ((hother' h hq').trans (hother hafter' hq))

end Statement

/-- In an `Attained` state two statements with different targets (`Request.target?`) have the same
`answers` in either order, and so have all that follow them, unless the numbers run out
(`numbersTaken`). -/
theorem Attained.answers_exchanged (h : Attained fits n db) (hfirst : first.request? = .ok r)
    (hsecond : second.request? = .ok r') (hname : r.target? = some name)
    (hname' : r'.target? = some name') (hne : name ≠ name') (further : List Statement)
    (j j' : Journal) (hbound : n + numbersTaken (first :: second :: further) db j < 2 ^ 64) :
    ∃ x y zs, answers (first :: second :: further) db j = x :: y :: zs
      ∧ answers (second :: first :: further) db j' = y :: x :: zs := by
  have h : Attained (fun _ => True) n db := h.mono fun _ _ => trivial
  have hafter := h.executed first j fun _ _ _ => trivial
  have hafter' := h.executed second j' fun _ _ _ => trivial
  have hagree : db.AgreeOn (first.run.after db j) name' :=
    Statement.agreeOn_of_ne h.inStep hfirst hname hne.symm
  have hagree' : db.AgreeOn (second.run.after db j') name :=
    Statement.agreeOn_of_ne h.inStep hsecond hname' hne
  have hnumbers := Statement.numbers_agree hagree h.inStep hafter.inStep hsecond hname' j'
    (first.run.journal db j)
  have hnumbers' := Statement.numbers_agree hagree' h.inStep hafter'.inStep hfirst hname j
    (second.run.journal db j')
  rw [numbersTaken, numbersTaken, hnumbers, ← Nat.add_assoc, ← Nat.add_assoc] at hbound
  have hboth := hafter.executed second (first.run.journal db j) fun _ _ _ => trivial
  have hboth' := hafter'.executed first (second.run.journal db j') fun _ _ _ => trivial
  rw [hnumbers] at hboth
  rw [hnumbers', Nat.add_right_comm] at hboth'
  have halike := Statement.alike_exchanged (j := j) h hfirst hsecond hname hname' hne
    (by omega : n + first.numbers db j + second.numbers db j' < 2 ^ 64)
    (first.run.journal db j) (second.run.journal db j')
  refine ⟨_, _, _, rfl, ?_⟩
  rw [answers, answers, answers_alike halike hboth hboth' hbound,
    Statement.result_agree hagree' h.inStep hafter'.inStep hfirst hname j,
    Statement.result_agree hagree h.inStep hafter.inStep hsecond hname' j']

/-! ## Two insertions -/

theorem attained_withSevens : Attained (fun _ => True) 4 withSevens := by
  have hempty : Attained (fun _ => True) 0 ⟨.empty, Store.volatile.create Catalog.metadata, {}⟩ :=
    .created (Database.create_eq rfl [])
  have hcreated := (hempty.requested (r := .createTable "a" [⟨"n", .integer⟩] none) trivial
    (j := []) (k := 0) (by decide +kernel)).requested
      (r := .createTable "b" [⟨"n", .integer⟩] none) trivial (j := []) (k := 0) (by decide +kernel)
  have hfilled := (hcreated.requested (r := .insert "a" [[.int 7], [.int 8]]) trivial (j := [])
    (k := 2) (by decide +kernel)).requested
      (r := .insert "b" [[.int 7], [.int 7]]) trivial (j := []) (k := 2) (by decide +kernel)
  exact hfilled.configured true 2

/-- A seven more for the first relation. -/
def insertFirst : Statement := .request (.insert "a" [[.int 7]])

/-- An eight for the second. -/
def insertSecond : Statement := .request (.insert "b" [[.int 8]])

/-- In the two orders the rows get other numbers, and a join of the relations does not show it. -/
theorem answers_exchanged_withSevens :
    (insertSecond.run.after (insertFirst.run.after withSevens []) []).store
        ≠ (insertFirst.run.after (insertSecond.run.after withSevens []) []).store
      ∧ ∃ x y zs, answers [insertFirst, insertSecond, .request (.select common)] withSevens []
          = x :: y :: zs
        ∧ answers [insertSecond, insertFirst, .request (.select common)] withSevens []
          = y :: x :: zs := by
  refine ⟨by decide +kernel, attained_withSevens.answers_exchanged rfl rfl rfl rfl (by decide)
    [.request (.select common)] [] [] ?_⟩
  have hfirst : insertFirst.numbers withSevens [] = 1 := by decide +kernel
  have hsecond : insertSecond.numbers (insertFirst.run.after withSevens [])
      (insertFirst.run.journal withSevens []) = 1 := by decide +kernel
  have hselect : ∀ db j, (Statement.request (.select common)).numbers db j = 0 := fun db j =>
    Statement.numbers_of_isRead rfl rfl
  rw [numbersTaken, numbersTaken, numbersTaken, numbersTaken, hfirst, hsecond, hselect]
  decide

end RelQuery.Session
