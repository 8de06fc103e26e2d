/-
  Computations that may fail: what is known when they succeed, and which errors they can fail with.

  Main statements: a sequence that succeeds is one of parts that do (`exists_of_bind_eq_ok`,
  `forall₂_of_mapM_eq_ok`), and one that fails does so with an error of its parts
  (`FailsOnly.bind`, `FailsOnly.mapM`).
-/
import RelQuery.Error
import Mathlib.Data.List.Forall2

namespace RelQuery

theorem exists_mem_of_forall₂ {α β : Type} {R : α → β → Prop} {as : List α} {bs : List β}
    (h : List.Forall₂ R as bs) {a : α} (ha : a ∈ as) : ∃ b ∈ bs, R a b := by
  induction h with
  | nil => cases ha
  | cons hab _ ih =>
    rcases List.mem_cons.1 ha with rfl | ha
    · exact ⟨_, List.mem_cons_self, hab⟩
    · obtain ⟨b, hb, hab⟩ := ih ha
      exact ⟨b, List.mem_cons_of_mem _ hb, hab⟩

theorem exists_forall₂ {α β : Type} {R : α → β → Prop} {as : List α} (h : ∀ a ∈ as, ∃ b, R a b) :
    ∃ bs, List.Forall₂ R as bs := by
  induction as with
  | nil => exact ⟨[], .nil⟩
  | cons a as ih =>
    obtain ⟨b, hb⟩ := h a List.mem_cons_self
    obtain ⟨bs, hbs⟩ := ih fun a' ha' => h a' (List.mem_cons_of_mem a ha')
    exact ⟨b :: bs, .cons hb hbs⟩

/-- Parts that are of one form each make a list of that form. -/
theorem forall₂_exists_iff {α β γ δ : Type} {f : α → γ} {g : β → γ} {R : β → δ → Prop}
    {as : List α} {ds : List δ} :
    List.Forall₂ (fun a d => ∃ b, f a = g b ∧ R b d) as ds
      ↔ ∃ bs, as.map f = bs.map g ∧ List.Forall₂ R bs ds := by
  constructor
  · intro h
    induction h with
    | nil => exact ⟨[], rfl, .nil⟩
    | cons hd _ ih =>
      obtain ⟨b, hb, hr⟩ := hd
      obtain ⟨bs, hbs, hrs⟩ := ih
      exact ⟨b :: bs, by rw [List.map_cons, List.map_cons, hb, hbs], .cons hr hrs⟩
  · rintro ⟨bs, hbs, hrs⟩
    induction hrs generalizing as with
    | nil => rw [List.map_eq_nil_iff.1 hbs]; exact .nil
    | cons hr _ ih =>
      cases as with
      | nil => cases hbs
      | cons a as =>
        obtain ⟨hb, hbs⟩ := List.cons.inj hbs
        exact .cons ⟨_, hb, hr⟩ (ih hbs)

/-! ## Success -/

/-- A sequence that succeeds is one of two computations that do. -/
theorem exists_of_bind_eq_ok {ε α β : Type} {x : Except ε α} {f : α → Except ε β} {b : β}
    (h : (x >>= f) = .ok b) : ∃ a, x = .ok a ∧ f a = .ok b := by
  cases x with
  | error e => cases h
  | ok a => exact ⟨a, rfl, h⟩

theorem bind_eq_ok_iff {ε α β : Type} {x : Except ε α} {f : α → Except ε β} {b : β} :
    (x >>= f) = .ok b ↔ ∃ a, x = .ok a ∧ f a = .ok b :=
  ⟨exists_of_bind_eq_ok, fun ⟨_, hx, hf⟩ => by rw [hx]; exact hf⟩

theorem map_eq_ok_iff {ε α β : Type} {x : Except ε α} {f : α → β} {b : β} :
    x.map f = .ok b ↔ ∃ a, x = .ok a ∧ f a = b := by
  cases x <;> simp [Except.map]

theorem eq_ok_of_toOption_eq_some {ε α : Type} {x : Except ε α} {a : α}
    (h : x.toOption = some a) : x = .ok a := by
  cases x with
  | error e => cases h
  | ok b => rw [Option.some.inj h]

theorem check_eq_ok_iff {ε α : Type} {c : Prop} [Decidable c] {e : ε} {x : Except ε α} {a : α} :
    (if c then .error e else x) = .ok a ↔ ¬ c ∧ x = .ok a := by
  split
  · rename_i h
    exact iff_of_false (fun h => nomatch h) fun h' => h'.1 h
  · rename_i h
    exact (and_iff_right h).symm

theorem Except.map_map {ε α β γ : Type} (f : α → β) (g : β → γ) (x : Except ε α) :
    (x.map f).map g = x.map fun a => g (f a) := by
  cases x <;> rfl

/-- Only what follows a success counts. -/
theorem bind_congr_of_ok {ε α β : Type} {x : Except ε α} {f g : α → Except ε β}
    (h : ∀ a, x = .ok a → f a = g a) : (x >>= f) = x >>= g := by
  cases x with
  | error e => rfl
  | ok a => exact h a rfl

/-- Computations on a list that all succeed. -/
theorem forall₂_of_mapM_eq_ok {ε α β : Type} {f : α → Except ε β} {as : List α} {bs : List β}
    (h : as.mapM f = .ok bs) : List.Forall₂ (fun a b => f a = .ok b) as bs := by
  induction as generalizing bs with
  | nil =>
    cases h
    exact .nil
  | cons a as ih =>
    rw [List.mapM_cons] at h
    cases ha : f a with
    | error e => rw [ha] at h; cases h
    | ok b =>
      cases has : as.mapM f with
      | error e => rw [ha, has] at h; cases h
      | ok bs' =>
        rw [ha, has] at h
        cases h
        exact .cons ha (ih has)

theorem mapM_eq_ok_of_forall₂ {ε α β : Type} {f : α → Except ε β} {as : List α} {bs : List β}
    (h : List.Forall₂ (fun a b => f a = .ok b) as bs) : as.mapM f = .ok bs := by
  induction h with
  | nil => rfl
  | cons ha _ ih =>
    rw [List.mapM_cons, ha, ih]
    rfl

theorem mapM_eq_ok_iff {ε α β : Type} {f : α → Except ε β} {as : List α} {bs : List β} :
    as.mapM f = .ok bs ↔ List.Forall₂ (fun a b => f a = .ok b) as bs :=
  ⟨forall₂_of_mapM_eq_ok, mapM_eq_ok_of_forall₂⟩

/-! ## Failure -/

/-- If the computation fails, then with such an error. -/
def FailsOnly {α : Type} (P : Error → Prop) (x : Except Error α) : Prop :=
  ∀ e, x = .error e → P e

namespace FailsOnly

variable {α β : Type} {P Q : Error → Prop}

theorem ok (a : α) : FailsOnly P (.ok a) := fun _ h => nomatch h

theorem error {e : Error} (h : P e) : FailsOnly P (.error e : Except Error α) := by
  intro e' he'
  cases he'
  exact h

theorem mono {x : Except Error α} (hx : FailsOnly P x) (h : ∀ e, P e → Q e) : FailsOnly Q x :=
  fun e he => h e (hx e he)

theorem bind {x : Except Error α} {f : α → Except Error β} (hx : FailsOnly P x)
    (hf : ∀ a, x = .ok a → FailsOnly P (f a)) : FailsOnly P (x >>= f) := by
  cases x with
  | error e => exact error (hx e rfl)
  | ok a => exact hf a rfl

theorem map {x : Except Error α} (hx : FailsOnly P x) (f : α → β) : FailsOnly P (x.map f) := by
  cases x with
  | error e => exact error (hx e rfl)
  | ok a => exact ok (f a)

/-- A check in front of what comes next. -/
theorem check {c : Prop} [Decidable c] {e : Error} {f : Unit → Except Error α} (he : P e)
    (hf : FailsOnly P (f ())) : FailsOnly P (if c then throw e >>= f else f ()) := by
  split
  · exact error he
  · exact hf

theorem mapM {f : α → Except Error β} {as : List α} (h : ∀ a ∈ as, FailsOnly P (f a)) :
    FailsOnly P (as.mapM f) := by
  induction as with
  | nil => exact ok []
  | cons a as ih =>
    obtain ⟨ha, has⟩ := List.forall_mem_cons.1 h
    rw [List.mapM_cons]
    exact ha.bind fun b _ => (ih has).bind fun bs _ => ok (b :: bs)

end FailsOnly

end RelQuery
