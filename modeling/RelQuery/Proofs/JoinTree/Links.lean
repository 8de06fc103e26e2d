/-
  Links between things, in no direction and perhaps several between the same two: what walks along
  them reach, and whether a walk can come back without taking a link twice.

  Main statements: linked things are at most one more than the links (`length_le_of_linked`), and
  a cycle is a link whose ends stay linked without it (`hasCycleFrom_iff`).
-/
import Mathlib.Data.List.Perm.Subperm
import Mathlib.Data.List.Basic

namespace RelQuery.JoinTree

variable {α : Type}

/-- A link joins its ends, whichever stands first. -/
def Joins (e : α × α) (a b : α) : Prop := e = (a, b) ∨ e = (b, a)

/-- A walk from one thing to another along links. -/
inductive Walk : α → α → List (α × α) → Prop where
  | here (a : α) : Walk a a []
  | step {a b c : α} {e : α × α} {w : List (α × α)} :
    Joins e a b → Walk b c w → Walk a c (e :: w)

/-- A walk along the links leads from one thing to the other. -/
def Linked (es : List (α × α)) (a b : α) : Prop := ∃ w, Walk a b w ∧ w ⊆ es

/-- Some walk comes back to where it began, takes no link more often than there is, and can be
reached. -/
def HasCycleFrom (es : List (α × α)) (a : α) : Prop :=
  ∃ b w, Linked es a b ∧ Walk b b w ∧ w ≠ [] ∧ w.Subperm es

/-- The links of a tree over some things: one less than there are, and all are linked. -/
def SpanningTree (things : List α) (es : List (α × α)) : Prop :=
  es.length + 1 = things.length ∧ ∀ a ∈ things, ∀ b ∈ things, Linked es a b

/-! ## Walks -/

theorem Joins.symm {e : α × α} {a b : α} (h : Joins e a b) : Joins e b a := Or.symm h

theorem Walk.append {a b c : α} {v w : List (α × α)} (h : Walk a b v) (h' : Walk b c w) :
    Walk a c (v ++ w) := by
  induction h with
  | here => exact h'
  | step he _ ih => exact .step he (ih h')

theorem Walk.reverse {a b : α} {w : List (α × α)} (h : Walk a b w) : Walk b a w.reverse := by
  induction h with
  | here => exact .here _
  | step he _ ih =>
    rw [List.reverse_cons]
    exact ih.append (.step he.symm (.here _))

namespace Linked

theorem refl (es : List (α × α)) (a : α) : Linked es a a := ⟨[], .here a, List.nil_subset _⟩

theorem symm {es : List (α × α)} {a b : α} (h : Linked es a b) : Linked es b a := by
  obtain ⟨w, hw, hs⟩ := h
  exact ⟨w.reverse, hw.reverse, fun e he => hs (List.mem_reverse.1 he)⟩

theorem trans {es : List (α × α)} {a b c : α} (h : Linked es a b) (h' : Linked es b c) :
    Linked es a c := by
  obtain ⟨v, hv, hvs⟩ := h
  obtain ⟨w, hw, hws⟩ := h'
  exact ⟨v ++ w, hv.append hw, List.append_subset.2 ⟨hvs, hws⟩⟩

theorem mono {es es' : List (α × α)} {a b : α} (h : Linked es a b) (hs : es ⊆ es') :
    Linked es' a b := by
  obtain ⟨w, hw, hws⟩ := h
  exact ⟨w, hw, fun e he => hs (hws he)⟩

theorem of_mem {es : List (α × α)} {e : α × α} (h : e ∈ es) : Linked es e.1 e.2 :=
  ⟨[e], .step (.inl rfl) (.here _), by simpa using h⟩

/-- Only a thing itself is linked to it without links. -/
theorem eq_of_nil {a b : α} (h : Linked [] a b) : a = b := by
  obtain ⟨w, hw, hs⟩ := h
  cases hw with
  | here => rfl
  | step he hw => exact absurd (hs List.mem_cons_self) List.not_mem_nil

/-- Things that are linked by one link more are linked without it or each to one of its ends. -/
theorem of_cons {e : α × α} {es : List (α × α)} {a b : α} (h : Linked (e :: es) a b) :
    Linked es a b ∨ Linked es a e.1 ∧ Linked es e.2 b ∨ Linked es a e.2 ∧ Linked es e.1 b := by
  obtain ⟨w, hw, hs⟩ := h
  induction hw with
  | here a => exact .inl (refl es a)
  | @step a c b f w hf _ ih =>
    obtain ⟨hmem, hs⟩ := List.cons_subset.1 hs
    have ih := ih hs
    rcases List.mem_cons.1 hmem with rfl | hmem
    · -- The walk starts with the link itself, so what was said of its far end says it of `a`.
      rcases hf with rfl | rfl
      · rcases ih with h | ⟨-, h⟩ | ⟨-, h⟩
        · exact .inr (.inl ⟨refl es a, h⟩)
        · exact .inr (.inl ⟨refl es a, h⟩)
        · exact .inl h
      · rcases ih with h | ⟨-, h⟩ | ⟨-, h⟩
        · exact .inr (.inr ⟨refl es a, h⟩)
        · exact .inl h
        · exact .inr (.inr ⟨refl es a, h⟩)
    · have hac : Linked es a c := ⟨[f], .step hf (.here _), by simpa using hmem⟩
      rcases ih with h | ⟨h, h'⟩ | ⟨h, h'⟩
      · exact .inl (hac.trans h)
      · exact .inr (.inl ⟨hac.trans h, h'⟩)
      · exact .inr (.inr ⟨hac.trans h, h'⟩)

/-- A link whose ends are linked by the others adds nothing. -/
theorem of_cons_of_linked {e : α × α} {es : List (α × α)} {a b : α} (h : Linked (e :: es) a b)
    (he : Linked es e.1 e.2) : Linked es a b := by
  rcases h.of_cons with h | ⟨h, h'⟩ | ⟨h, h'⟩
  · exact h
  · exact (h.trans he).trans h'
  · exact (h.trans he.symm).trans h'

/-- A walk that never meets the other links stays on those it met. -/
theorem of_append_of_closed {es rest : List (α × α)} {a b : α} (inside : α → Prop)
    (h : Linked (es ++ rest) a b) (ha : inside a)
    (hes : ∀ e ∈ es, inside e.1 ∧ inside e.2) (hrest : ∀ e ∈ rest, ¬ inside e.1 ∧ ¬ inside e.2) :
    Linked es a b ∧ inside b := by
  obtain ⟨w, hw, hs⟩ := h
  induction hw with
  | here a => exact ⟨refl es a, ha⟩
  | @step a c b f w hf _ ih =>
    obtain ⟨hmem, hs⟩ := List.cons_subset.1 hs
    have hfes : f ∈ es := by
      rcases List.mem_append.1 hmem with hmem | hmem
      · exact hmem
      · rcases hf with rfl | rfl
        · exact absurd ha (hrest _ hmem).1
        · exact absurd ha (hrest _ hmem).2
    have hc : inside c := by
      rcases hf with rfl | rfl
      · exact (hes _ hfes).2
      · exact (hes _ hfes).1
    have hac : Linked es a c := ⟨[f], .step hf (.here _), by simpa using hfes⟩
    exact ⟨hac.trans (ih hc hs).1, (ih hc hs).2⟩

end Linked

/-! ## Counting -/

/-- Of pairwise unrelated things at most one has a property that relates those who have it. -/
theorem length_filter_le_one {r : α → α → Prop} {p : α → Bool} {as : List α}
    (h : as.Pairwise fun a b => ¬ r a b) (hp : ∀ a b, p a = true → p b = true → r a b) :
    (as.filter p).length ≤ 1 := by
  have hpair := h.filter p
  match hf : as.filter p with
  | [] => simp
  | [a] => simp
  | a :: b :: rest =>
    have ha : a ∈ as.filter p := hf ▸ List.mem_cons_self
    have hb : b ∈ as.filter p := hf ▸ List.mem_cons_of_mem _ List.mem_cons_self
    rw [hf] at hpair
    exact absurd (hp a b (List.mem_filter.1 ha).2 (List.mem_filter.1 hb).2)
      (List.rel_of_pairwise_cons hpair List.mem_cons_self)

/-- Each link brings at most two groups of linked things together: leaving out as many things as
there are links, at most, leaves things no two of which are linked. -/
theorem exists_apart {things : List α} (hn : things.Nodup) (es : List (α × α)) :
    ∃ apart, apart ⊆ things ∧ apart.Pairwise (fun a b => ¬ Linked es a b)
      ∧ things.length ≤ apart.length + es.length := by
  classical
  induction es with
  | nil =>
    refine ⟨things, List.Subset.refl _, hn.imp fun hab h => hab (Linked.eq_of_nil h), by simp⟩
  | cons e es ih =>
    obtain ⟨apart, hsub, hpair, hlen⟩ := ih
    -- Of those linked to the second end of the new link there is one, which is left out.
    refine ⟨apart.filter fun a => ¬ Linked es a e.2,
      fun a ha => hsub (List.mem_filter.1 ha).1, ?_, ?_⟩
    · refine List.Pairwise.imp_of_mem ?_ (hpair.filter _)
      intro a b ha hb hab h
      have ha' : ¬ Linked es a e.2 := by simpa using (List.mem_filter.1 ha).2
      have hb' : ¬ Linked es b e.2 := by simpa using (List.mem_filter.1 hb).2
      rcases h.of_cons with h | ⟨-, h⟩ | ⟨h, -⟩
      · exact hab h
      · exact hb' h.symm
      · exact ha' h
    · have hone : (apart.filter fun a => decide (Linked es a e.2)).length ≤ 1 :=
        length_filter_le_one hpair fun a b ha hb =>
          (of_decide_eq_true ha : Linked es a e.2).trans (of_decide_eq_true hb).symm
      have hsplit := List.length_eq_length_filter_add (l := apart)
        fun a => decide (Linked es a e.2)
      simp only [List.length_cons, decide_not]
      omega

/-- Things that are all linked are at most one more than the links. -/
theorem length_le_of_linked {things : List α} {es : List (α × α)} (hn : things.Nodup)
    (h : ∀ a ∈ things, ∀ b ∈ things, Linked es a b) : things.length ≤ es.length + 1 := by
  obtain ⟨apart, hsub, hpair, hlen⟩ := exists_apart hn es
  match apart with
  | [] => simp at hlen; omega
  | [a] => simp at hlen; omega
  | a :: b :: rest =>
    exact absurd (h a (hsub (by simp)) b (hsub (by simp)))
      (List.rel_of_pairwise_cons hpair List.mem_cons_self)

/-! ## Cycles -/

theorem Walk.linked_of_mem {a b : α} {w : List (α × α)} (h : Walk a b w) {e : α × α} (he : e ∈ w) :
    Linked w a e.1 ∧ Linked w a e.2 := by
  induction h with
  | here => cases he
  | @step a c b f w hf _ ih =>
    have hac : Linked (f :: w) a c := ⟨[f], .step hf (.here _), by simp⟩
    rcases List.mem_cons.1 he with rfl | he
    · rcases hf with rfl | rfl
      · exact ⟨.refl _ _, hac⟩
      · exact ⟨hac, .refl _ _⟩
    · have h := ih he
      exact ⟨hac.trans (h.1.mono (List.subset_cons_self ..)),
        hac.trans (h.2.mono (List.subset_cons_self ..))⟩

/-- Walks that stay apart take no link more often than there is when neither does. -/
theorem subperm_append_of_disjoint {es v w : List (α × α)} (hv : v.Subperm es) (hw : w.Subperm es)
    (hd : ∀ e ∈ v, e ∉ w) : (v ++ w).Subperm es := by
  classical
  rw [List.subperm_ext_iff] at hv hw ⊢
  intro e he
  rw [List.count_append]
  by_cases hev : e ∈ v
  · have := hv e hev
    rw [List.count_eq_zero_of_not_mem (hd e hev)]
    omega
  · have := hw e ((List.mem_append.1 he).resolve_left hev)
    rw [List.count_eq_zero_of_not_mem hev]
    omega

/-- Linked things are linked by a walk that takes no link more often than there is. -/
theorem Linked.exists_walk {es : List (α × α)} {a b : α} (h : Linked es a b) :
    ∃ w, Walk a b w ∧ w.Subperm es := by
  induction es generalizing a b with
  | nil =>
    obtain rfl := h.eq_of_nil
    exact ⟨[], .here a, .refl _⟩
  | cons e es ih =>
    by_cases hwithout : Linked es a b
    · obtain ⟨w, hw, hs⟩ := ih hwithout
      exact ⟨w, hw, hs.trans (List.subperm_cons_self ..)⟩
    · -- The link is needed, so what leads to it and what leads on share no other link.
      have key : ∀ c d, Joins e c d → Linked es a c → Linked es d b →
          ∃ w, Walk a b w ∧ w.Subperm (e :: es) := by
        intro c d he hac hdb
        obtain ⟨v, hv, hvs⟩ := ih hac
        obtain ⟨w, hw, hws⟩ := ih hdb
        have hd : ∀ f ∈ v, f ∉ w := by
          intro f hfv hfw
          have h₁ := (hv.linked_of_mem hfv).1.mono hvs.subset
          have h₂ := (hw.linked_of_mem hfw).1.mono hws.subset
          exact hwithout (h₁.trans (h₂.symm.trans hdb))
        refine ⟨v ++ e :: w, hv.append (.step he hw), ?_⟩
        exact List.perm_middle.subperm.trans
          ((List.subperm_cons e).2 (subperm_append_of_disjoint hvs hws hd))
      rcases h.of_cons with h | ⟨h, h'⟩ | ⟨h, h'⟩
      · exact absurd h hwithout
      · exact key e.1 e.2 (.inl rfl) h h'
      · exact key e.2 e.1 (.inr rfl) h h'

/-- There is a cycle where the ends of a link stay linked without it. -/
theorem hasCycleFrom_iff [DecidableEq α] {es : List (α × α)} {a : α} :
    HasCycleFrom es a ↔ ∃ e ∈ es, Linked es a e.1 ∧ Linked (es.erase e) e.1 e.2 := by
  constructor
  · rintro ⟨b, w, hab, hw, hne, hs⟩
    cases hw with
    | here => exact absurd rfl hne
    | @step _ c _ e w he hw =>
      have hmem : e ∈ es := hs.subset List.mem_cons_self
      have hsub : w.Subperm (es.erase e) := by
        have := hs.erase e
        rwa [List.erase_cons_head] at this
      have hback : Linked (es.erase e) c b := ⟨w, hw, hsub.subset⟩
      rcases he with rfl | rfl
      · exact ⟨_, hmem, hab, hback.symm⟩
      · exact ⟨_, hmem, hab.trans (Linked.of_mem hmem).symm, hback⟩
  · rintro ⟨e, hmem, ha, he⟩
    obtain ⟨w, hw, hs⟩ := he.symm.exists_walk
    refine ⟨e.1, e :: w, ha, .step (.inl rfl) hw, List.cons_ne_nil _ _, ?_⟩
    exact ((List.subperm_cons e).2 hs).trans (List.perm_cons_erase hmem).symm.subperm

end RelQuery.JoinTree
