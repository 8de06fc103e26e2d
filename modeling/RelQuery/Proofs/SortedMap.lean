/-
  Sorted maps are what their look-ups say: an entry is found under its key, and maps in which the
  same is found are equal.

  Main statements: `find?_eq_some_iff`, `ext_find?`; what is in a map after an insertion
  (`mem_insert_iff`).
-/
import RelQuery.SortedMap
import Mathlib.Data.List.Perm.Basic

namespace RelQuery.SortedMap

variable {κ ν : Type} [Ord κ] [Std.LawfulEqOrd κ]

theorem keys_nodup (m : SortedMap κ ν) : m.keys.Nodup := by
  refine List.pairwise_map.2 (m.sorted.imp ?_)
  intro a b hlt heq
  have heq : compare a.1 b.1 = .eq := Std.LawfulEqOrd.compare_eq_iff_eq.2 heq
  rw [heq] at hlt
  cases hlt

theorem nodup (m : SortedMap κ ν) : m.entries.Nodup :=
  (List.pairwise_map.1 m.keys_nodup).imp fun hne heq => hne (congrArg Prod.fst heq)

/-- What is found under a key is the value of the entry there. -/
theorem find?_eq_some_iff {m : SortedMap κ ν} {k : κ} {v : ν} :
    m.find? k = some v ↔ (k, v) ∈ m.entries := by
  simp only [find?, Std.LawfulEqOrd.compare_eq_iff_eq]
  constructor
  · intro h
    obtain ⟨e, he, rfl⟩ := Option.map_eq_some_iff.1 h
    have hk : e.1 = k := by simpa using List.find?_some he
    rw [← hk]
    exact List.mem_of_find?_eq_some he
  · intro h
    have hn := m.keys_nodup
    unfold keys at hn
    generalize m.entries = es at h hn
    induction es with
    | nil => cases h
    | cons e es ih =>
      rw [List.map_cons, List.nodup_cons] at hn
      rcases List.mem_cons.1 h with rfl | h
      · simp
      · have hne : e.1 ≠ k := fun heq => hn.1 (heq ▸ List.mem_map_of_mem h)
        rw [List.find?_cons_of_neg (by simpa using hne)]
        exact ih h hn.2

theorem find?_isSome_iff {m : SortedMap κ ν} {k : κ} : (m.find? k).isSome ↔ k ∈ m.keys := by
  rw [Option.isSome_iff_exists, keys, List.mem_map]
  constructor
  · rintro ⟨v, hv⟩
    exact ⟨(k, v), find?_eq_some_iff.1 hv, rfl⟩
  · rintro ⟨e, he, rfl⟩
    exact ⟨e.2, find?_eq_some_iff.2 he⟩

/-- Maps in which the same is found have the same entries. -/
theorem ext_find? [Std.TransOrd κ] {m m' : SortedMap κ ν} (h : ∀ k, m.find? k = m'.find? k) :
    m = m' := by
  have hmem : ∀ e, e ∈ m.entries ↔ e ∈ m'.entries := fun e => by
    rw [← find?_eq_some_iff (k := e.1) (v := e.2), h, find?_eq_some_iff]
  have hperm : m.entries.Perm m'.entries :=
    (List.perm_ext_iff_of_nodup m.nodup m'.nodup).2 hmem
  have hentries : m.entries = m'.entries := by
    have hanti : ∀ a b : κ × ν, a ∈ m.entries → b ∈ m'.entries → compare a.1 b.1 = .lt →
        compare b.1 a.1 = .lt → a = b := by
      intro a b _ _ hab hba
      rw [Std.OrientedCmp.gt_of_lt hba] at hab
      cases hab
    exact List.Perm.eq_of_pairwise hanti m.sorted m'.sorted hperm
  cases m
  cases m'
  cases hentries
  rfl

/-- After an insertion a map has the new entry and the old ones under other keys. -/
theorem mem_insert_iff [Std.TransOrd κ] [DecidableEq κ] {m : SortedMap κ ν} {k : κ} {v : ν}
    {e : κ × ν} : e ∈ (m.insert k v).entries ↔ e = (k, v) ∨ e.1 ≠ k ∧ e ∈ m.entries := by
  obtain ⟨k', v'⟩ := e
  rw [← find?_eq_some_iff, find?_insert, ← find?_eq_some_iff]
  by_cases hk : k = k'
  · subst hk
    simp [eq_comm]
  · rw [if_neg hk]
    simp [Ne.symm hk]

omit [Std.LawfulEqOrd κ] in
/-- An entry whose key comes after all others becomes the last. -/
theorem insert_of_last [Std.TransOrd κ] {m : SortedMap κ ν} {k : κ} {v : ν}
    (h : ∀ e ∈ m.entries, compare e.1 k = .lt) :
    (m.insert k v).entries = m.entries ++ [(k, v)] := by
  show insertEntry k v m.entries = m.entries ++ [(k, v)]
  generalize m.entries = es at h
  induction es with
  | nil => rfl
  | cons e es ih =>
    obtain ⟨hfirst, hrest⟩ := List.forall_mem_cons.1 h
    rw [insertEntry, Std.OrientedCmp.gt_of_lt hfirst]
    dsimp only
    rw [ih hrest, List.cons_append]

end RelQuery.SortedMap
