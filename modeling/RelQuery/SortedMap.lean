/-
  Finite maps as lists of entries in strictly ascending order of their keys.

  Two maps with the same entries are equal, so what a map holds is its list. Main statements:
  `find?_insert` and `find?_erase` say what the two updates do to a look-up.
-/
namespace RelQuery

structure SortedMap (κ ν : Type) [Ord κ] where
  entries : List (κ × ν)
  sorted : entries.Pairwise fun a b => compare a.1 b.1 = .lt

namespace SortedMap

variable {κ ν : Type} [Ord κ]

instance [DecidableEq κ] [DecidableEq ν] : DecidableEq (SortedMap κ ν) := fun a b =>
  decidable_of_iff (a.entries = b.entries)
    ⟨fun h => by cases a; cases b; cases h; rfl, fun h => h ▸ rfl⟩

def empty : SortedMap κ ν := ⟨[], .nil⟩

instance : Inhabited (SortedMap κ ν) := ⟨empty⟩

def size (m : SortedMap κ ν) : Nat := m.entries.length

def keys (m : SortedMap κ ν) : List κ := m.entries.map (·.1)

def find? (m : SortedMap κ ν) (k : κ) : Option ν :=
  (m.entries.find? fun e => compare e.1 k = .eq).map (·.2)

def contains (m : SortedMap κ ν) (k : κ) : Bool := (m.find? k).isSome

/-- The entries whose keys come after `bound`; all of them without a bound. -/
def after (m : SortedMap κ ν) : (bound : Option κ) → List (κ × ν)
  | none => m.entries
  | some k => m.entries.filter fun e => compare k e.1 = .lt

/-- The entries under a key and under those that come after it. -/
def onward (m : SortedMap κ ν) (k : κ) : List (κ × ν) :=
  m.entries.filter fun e => compare e.1 k ≠ .lt

/-! ## Updates -/

/-- Puts an entry in its place, over one with an equal key. -/
def insertEntry (k : κ) (v : ν) : List (κ × ν) → List (κ × ν)
  | [] => [(k, v)]
  | e :: es =>
    match compare k e.1 with
    | .lt => (k, v) :: e :: es
    | .eq => (k, v) :: es
    | .gt => e :: insertEntry k v es

theorem mem_insertEntry {k : κ} {v : ν} {es : List (κ × ν)} {e : κ × ν}
    (h : e ∈ insertEntry k v es) : e = (k, v) ∨ e ∈ es := by
  induction es with
  | nil => simpa [insertEntry] using h
  | cons d es ih =>
    rw [insertEntry] at h
    split at h
    · simpa using h
    · rcases List.mem_cons.1 h with h | h
      · exact .inl h
      · exact .inr (List.mem_cons_of_mem _ h)
    · rcases List.mem_cons.1 h with h | h
      · exact .inr (h ▸ List.mem_cons_self)
      · exact (ih h).imp id (List.mem_cons_of_mem _)

section

variable [Std.TransOrd κ]

theorem sorted_insertEntry {k : κ} {v : ν} {es : List (κ × ν)}
    (h : es.Pairwise fun a b => compare a.1 b.1 = .lt) :
    (insertEntry k v es).Pairwise fun a b => compare a.1 b.1 = .lt := by
  induction es with
  | nil => simp [insertEntry]
  | cons e es ih =>
    obtain ⟨head, tail⟩ := List.pairwise_cons.1 h
    rw [insertEntry]
    split
    · rename_i hlt
      refine List.pairwise_cons.2 ⟨fun d hd => ?_, h⟩
      rcases List.mem_cons.1 hd with rfl | hd
      · exact hlt
      · exact Std.TransCmp.lt_trans hlt (head d hd)
    · rename_i heq
      exact List.pairwise_cons.2
        ⟨fun d hd => Std.TransCmp.lt_of_eq_of_lt heq (head d hd), tail⟩
    · rename_i hgt
      refine List.pairwise_cons.2 ⟨fun d hd => ?_, ih tail⟩
      rcases mem_insertEntry hd with rfl | hd
      · exact Std.OrientedCmp.lt_of_gt hgt
      · exact head d hd

def insert (m : SortedMap κ ν) (k : κ) (v : ν) : SortedMap κ ν :=
  ⟨insertEntry k v m.entries, sorted_insertEntry m.sorted⟩

end

def erase (m : SortedMap κ ν) (k : κ) : SortedMap κ ν :=
  ⟨m.entries.filter fun e => compare e.1 k ≠ .eq, m.sorted.filter _⟩

/-! ## Look-ups after updates -/

section

variable [Std.TransOrd κ] [Std.LawfulEqOrd κ]

omit [Std.TransOrd κ] in
theorem find?_insertEntry [DecidableEq κ] (k k' : κ) (v : ν) (es : List (κ × ν)) :
    (insertEntry k v es).find? (fun e => compare e.1 k' = .eq)
      = if k = k' then some (k, v) else es.find? fun e => compare e.1 k' = .eq := by
  simp only [Std.LawfulEqOrd.compare_eq_iff_eq]
  induction es with
  | nil => simp [insertEntry]
  | cons e es ih =>
    rw [insertEntry]
    split
    · simp only [List.find?_cons]
      split <;> simp_all
    · rename_i heq
      have hk : k = e.1 := Std.LawfulEqOrd.compare_eq_iff_eq.1 heq
      simp only [List.find?_cons, hk]
      split <;> simp_all
    · rename_i hgt
      have hne : k ≠ e.1 := by
        rintro rfl
        simp at hgt
      simp only [List.find?_cons, ih]
      by_cases hk : k = k'
      · subst hk
        simp [Ne.symm hne]
      · simp [hk]

theorem find?_insert [DecidableEq κ] (m : SortedMap κ ν) (k k' : κ) (v : ν) :
    (m.insert k v).find? k' = if k = k' then some v else m.find? k' := by
  simp only [find?, insert, find?_insertEntry]
  split <;> simp

omit [Std.TransOrd κ] in
theorem find?_erase [DecidableEq κ] (m : SortedMap κ ν) (k k' : κ) :
    (m.erase k).find? k' = if k = k' then none else m.find? k' := by
  obtain ⟨es, h⟩ := m
  simp only [find?, erase, Std.LawfulEqOrd.compare_eq_iff_eq]
  clear h
  induction es with
  | nil => simp
  | cons e es ih =>
    simp only [List.find?_filter] at ih ⊢
    simp only [List.find?_cons]
    by_cases he : e.1 = k <;> by_cases hk : k = k' <;> by_cases h : e.1 = k' <;> simp_all

end

/-! ## What comes after a key -/

theorem filter_eq_dropWhile {α : Type} {p : α → Bool} {es : List α}
    (h : es.Pairwise fun a b => p a = true → p b = true) :
    es.filter p = es.dropWhile fun e => !p e := by
  induction es with
  | nil => rfl
  | cons e es ih =>
    obtain ⟨head, tail⟩ := List.pairwise_cons.1 h
    by_cases he : p e
    · have hall : es.filter p = es := List.filter_eq_self.2 fun d hd => head d hd he
      simp [he, hall]
    · simp [he, ih tail]

section

variable [Std.TransOrd κ]

theorem after_suffix (m : SortedMap κ ν) (bound : Option κ) : m.after bound <:+ m.entries := by
  cases bound with
  | none => exact List.suffix_refl _
  | some k =>
    rw [after, filter_eq_dropWhile (m.sorted.imp fun hab ha => ?_)]
    · exact List.dropWhile_suffix _
    · simp only [decide_eq_true_eq] at ha ⊢
      exact Std.TransCmp.lt_trans ha hab

theorem onward_pairwise {es : List (κ × ν)} {k : κ}
    (h : es.Pairwise fun a b => compare a.1 b.1 = .lt) :
    es.Pairwise fun a b => decide (compare a.1 k ≠ .lt) = true →
      decide (compare b.1 k ≠ .lt) = true := by
  refine h.imp fun hab ha => ?_
  simp only [ne_eq, decide_eq_true_eq] at ha ⊢
  exact fun hb => ha (Std.TransCmp.lt_trans hab hb)

theorem onward_suffix (m : SortedMap κ ν) (k : κ) : m.onward k <:+ m.entries := by
  rw [onward, filter_eq_dropWhile (onward_pairwise m.sorted)]
  exact List.dropWhile_suffix _

/-- What comes after the first of some last entries is the rest of them. -/
theorem after_of_suffix (m : SortedMap κ ν) {e : κ × ν} {es : List (κ × ν)}
    (h : e :: es <:+ m.entries) : m.after (some e.1) = es := by
  obtain ⟨before, hb⟩ := h
  have sorted := m.sorted
  rw [← hb, List.pairwise_append] at sorted
  obtain ⟨-, tail, across⟩ := sorted
  have hbefore : before.filter (fun d => compare e.1 d.1 = .lt) = [] := by
    refine List.filter_eq_nil_iff.2 fun d hd => ?_
    have hlt := across d hd e List.mem_cons_self
    simp [Std.OrientedCmp.gt_of_lt hlt]
  have hes : es.filter (fun d => compare e.1 d.1 = .lt) = es :=
    List.filter_eq_self.2 fun d hd => by simpa using (List.pairwise_cons.1 tail).1 d hd
  rw [after, ← hb, List.filter_append, hbefore, List.filter_cons, hes]
  simp

/-- The last entries of a map are those below a later key and those onward from it. -/
theorem takeWhile_append_onward (m : SortedMap κ ν) {e : κ × ν} {es : List (κ × ν)} {k : κ}
    (h : e :: es <:+ m.entries) (hk : compare e.1 k = .lt) :
    (e :: es).takeWhile (fun d => compare d.1 k = .lt) ++ m.onward k = e :: es := by
  obtain ⟨before, hb⟩ := h
  have sorted := m.sorted
  rw [← hb, List.pairwise_append] at sorted
  obtain ⟨-, tail, across⟩ := sorted
  have hbefore : before.filter (fun d => compare d.1 k ≠ .lt) = [] := by
    refine List.filter_eq_nil_iff.2 fun d hd => ?_
    have hlt := across d hd e List.mem_cons_self
    simp [Std.TransCmp.lt_trans hlt hk]
  rw [onward, ← hb, List.filter_append, hbefore, List.nil_append,
    filter_eq_dropWhile (onward_pairwise tail)]
  have hp : (fun d : κ × ν => !decide (compare d.1 k ≠ .lt))
      = fun d => decide (compare d.1 k = .lt) := by
    funext d
    simp
  rw [hp]
  exact List.takeWhile_append_dropWhile

end

end SortedMap

end RelQuery
