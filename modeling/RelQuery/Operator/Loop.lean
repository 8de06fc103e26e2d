/-
  Loops: rounds, one after the other, until one of them has an answer.

  A round is told apart from the going on. A loop comes to an end because each round without an
  answer leads strictly down, and what its rounds keep the loop keeps (`Loop.run_leads`,
  `Loop.run_alike`).
-/
namespace RelQuery

/-- What a round comes to: the answer, or the state in which the next round begins. -/
inductive Round (σ α : Type) where
  | done (answer : α)
  | again (s : σ)

namespace Round

variable {σ σ' α α' : Type}

/-- The answer, or what comes of going on. -/
def finish (go : σ → α) : Round σ α → α
  | done answer => answer
  | again s => go s

/-- The answer is one to end with, or the next state is good. -/
def Leads (good : σ → Prop) (ends : α → Prop) : Round σ α → Prop
  | done answer => ends answer
  | again s => good s

theorem Leads.mono {good good' : σ → Prop} {ends ends' : α → Prop} {round : Round σ α}
    (h : round.Leads good ends) (hgood : ∀ s, good s → good' s) (hends : ∀ a, ends a → ends' a) :
    round.Leads good' ends' := by
  cases round with
  | done answer => exact hends answer h
  | again s => exact hgood s h

/-- Both rounds have alike answers, or alike states come next. -/
inductive Alike (like : σ → σ' → Prop) (same : α → α' → Prop) : Round σ α → Round σ' α' → Prop
  | done {a : α} {a' : α'} (h : same a a') : Alike like same (done a) (done a')
  | again {s : σ} {s' : σ'} (h : like s s') : Alike like same (again s) (again s')

/-- Going on from alike states to alike answers keeps rounds alike. -/
theorem Alike.finish {like : σ → σ' → Prop} {same : α → α' → Prop} {round : Round σ α}
    {round' : Round σ' α'} (h : Alike like same round round') {go : σ → α} {go' : σ' → α'}
    (hgo : ∀ s s', like s s' → same (go s) (go' s')) :
    same (round.finish go) (round'.finish go') := by
  cases h with
  | done hsame => exact hsame
  | again hlike => exact hgo _ _ hlike

end Round

/-- Rounds, each of which has an answer or leads down. -/
structure Loop (σ α : Type) where
  round : σ → Round σ α
  /-- The first state is further on than the second. -/
  Later : σ → σ → Prop
  later_wf : WellFounded Later
  round_leads : ∀ s, (round s).Leads (Later · s) fun _ => True

namespace Loop

variable {σ σ' α α' : Type} {L : Loop σ α} {s t : σ} {answer : α}

theorem later_of_again (h : L.round s = .again t) : L.Later t s := by
  have hleads := L.round_leads s
  rwa [h] at hleads

/-- The answer of the first round that has one. -/
def run (L : Loop σ α) (s : σ) : α :=
  match _h : L.round s with
  | .done answer => answer
  | .again t => L.run t
termination_by L.later_wf.wrap s
decreasing_by exact later_of_again _h

theorem run_eq (L : Loop σ α) (s : σ) : L.run s = (L.round s).finish L.run := by
  rw [run]
  split <;> rename_i hr <;> rw [hr] <;> rfl

theorem run_of_done (h : L.round s = .done answer) : L.run s = answer := by
  rw [run_eq, h, Round.finish]

theorem run_of_again (h : L.round s = .again t) : L.run s = L.run t := by
  rw [run_eq, h, Round.finish]

/-- If rounds that begin in good states lead to good states until they end well, then loops that
begin in good states end well. -/
theorem run_leads (h : L.run s = answer) (good : σ → Prop) (ends : α → Prop) (hs : good s)
    (hround : ∀ s, good s → (L.round s).Leads good ends) : ends answer := by
  induction s using L.later_wf.induction with
  | _ s ih =>
    have hleads := hround s hs
    cases hr : L.round s with
    | done answer' =>
      rw [hr] at hleads
      rw [← h, run_of_done hr]
      exact hleads
    | again t =>
      rw [hr] at hleads
      rw [run_of_again hr] at h
      exact ih t (later_of_again hr) h hleads

/-- If rounds that begin in alike states are alike, then so are the answers of the loops. -/
theorem run_alike (h : L.run s = answer) (L' : Loop σ' α') (s' : σ') (like : σ → σ' → Prop)
    (same : α → α' → Prop) (hs : like s s')
    (hround : ∀ s s', like s s' → (L.round s).Alike like same (L'.round s')) :
    same answer (L'.run s') := by
  induction s using L.later_wf.induction generalizing s' with
  | _ s ih =>
    have halike := hround s s' hs
    generalize hr : L.round s = round at halike
    generalize hr' : L'.round s' = round' at halike
    cases halike with
    | done hsame =>
      rw [← h, run_of_done hr, run_of_done hr']
      exact hsame
    | again hlike =>
      rw [run_of_again hr] at h
      rw [run_of_again hr']
      exact ih _ (later_of_again hr) h _ hlike

end Loop

end RelQuery
