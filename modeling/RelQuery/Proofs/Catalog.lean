/-
  What is found in a catalog: relations stand under their own names, and what is found says all.

  Main statements: `Catalog.ext_lookup?`, and that schema records of a catalog's relations make
  that catalog again (`Catalog.foldlM_ofRecords`).
-/
import RelQuery.Catalog
import RelQuery.Proofs.Except
import RelQuery.Proofs.SortedMap

namespace RelQuery

namespace Catalog

variable {c : Catalog}

theorem lookup?_insert (c : Catalog) (s : Schema) (name : String) :
    (c.insert s).lookup? name = if s.name = name then some s else c.lookup? name :=
  SortedMap.find?_insert ..

theorem lookup?_erase (c : Catalog) (name name' : String) :
    (c.erase name).lookup? name' = if name = name' then none else c.lookup? name' :=
  SortedMap.find?_erase ..

theorem lookup?_of_erase {name name' : String} {s : Schema}
    (h : (c.erase name).lookup? name' = some s) : c.lookup? name' = some s := by
  rw [lookup?_erase] at h
  split at h
  · cases h
  · exact h

/-- A relation stands under its own name. -/
theorem name_of_lookup? {name : String} {s : Schema} (h : c.lookup? name = some s) :
    s.name = name := (c.named _ (SortedMap.find?_eq_some_iff.1 h)).symm

theorem lookup_eq_ok_iff {name : String} {s : Schema} :
    c.lookup name = .ok s ↔ c.lookup? name = some s := by
  unfold lookup
  cases c.lookup? name <;> simp

theorem checkCreate_eq_ok_iff {s : Schema} :
    c.checkCreate s = .ok () ↔ isReserved s.name = false ∧ c.lookup? s.name = none := by
  unfold checkCreate contains
  cases isReserved s.name <;> cases c.lookup? s.name <;> simp

theorem checkDrop_eq_ok_iff {name : String} :
    c.checkDrop name = .ok () ↔ ∃ s, c.lookup? name = some s := by
  unfold checkDrop contains
  cases c.lookup? name <;> simp

/-! Looking up, creating and dropping depend on what is found under the one name. -/

theorem lookup_congr {c' : Catalog} {name : String} (h : c'.lookup? name = c.lookup? name) :
    c'.lookup name = c.lookup name := by
  rw [lookup, lookup, h]

theorem checkCreate_congr {c' : Catalog} {s : Schema}
    (h : c'.lookup? s.name = c.lookup? s.name) : c'.checkCreate s = c.checkCreate s := by
  rw [checkCreate, checkCreate, contains, contains, h]

theorem checkDrop_congr {c' : Catalog} {name : String} (h : c'.lookup? name = c.lookup? name) :
    c'.checkDrop name = c.checkDrop name := by
  rw [checkDrop, checkDrop, contains, contains, h]

/-! Looking up, creating and dropping are refused with schema errors. -/

theorem lookup_failsOnly (c : Catalog) (name : String) :
    FailsOnly (·.kind.isSchema = true) (c.lookup name) := by
  unfold lookup
  split
  · exact .ok _
  · exact .error rfl

theorem checkCreate_failsOnly (c : Catalog) (s : Schema) :
    FailsOnly (·.kind.isSchema = true) (c.checkCreate s) := by
  unfold checkCreate
  split
  · exact .error rfl
  · split
    · exact .error rfl
    · exact .ok _

theorem checkDrop_failsOnly (c : Catalog) (name : String) :
    FailsOnly (·.kind.isSchema = true) (c.checkDrop name) := by
  unfold checkDrop
  split
  · exact .ok _
  · exact .error rfl

/-- Catalogs in which the same is found are equal. -/
theorem ext_lookup? {c c' : Catalog} (h : ∀ name, c.lookup? name = c'.lookup? name) : c = c' := by
  have hrelations : c.relations = c'.relations := SortedMap.ext_find? h
  cases c
  cases c'
  cases hrelations
  rfl

theorem isReserved_metadata : isReserved metadata = true := by decide

/-- Records that all hold schemas of a catalog make a catalog of those. -/
theorem foldlM_ofRecords (target c₀ : Catalog) {records : List (Bytes × Bytes)}
    (h : ∀ r ∈ records, ∃ s, Schema.decode r.2 = .ok s ∧ target.lookup? s.name = some s)
    (h₀ : ∀ name s, c₀.lookup? name = some s → target.lookup? name = some s) :
    ∃ c, records.foldlM (fun c r => return c.insert (← Schema.decode r.2)) c₀
        = (.ok c : Except Error Catalog)
      ∧ (∀ name s, c.lookup? name = some s → target.lookup? name = some s)
      ∧ (∀ name s, c₀.lookup? name = some s → c.lookup? name = some s)
      ∧ ∀ r ∈ records, ∀ s, Schema.decode r.2 = .ok s → c.lookup? s.name = some s := by
  induction records generalizing c₀ with
  | nil => exact ⟨c₀, rfl, h₀, fun _ _ => id, by simp⟩
  | cons r records ih =>
    obtain ⟨⟨s, hs, htarget⟩, hrest⟩ := List.forall_mem_cons.1 h
    have hinsert : ∀ name s', (c₀.insert s).lookup? name = some s' →
        target.lookup? name = some s' := by
      intro name s' hs'
      rw [lookup?_insert] at hs'
      split at hs'
      · rename_i hname
        cases hs'
        rw [← hname]
        exact htarget
      · exact h₀ name s' hs'
    obtain ⟨c, hc, hto, hfrom, hrecords⟩ := ih (c₀.insert s) hrest hinsert
    have hsame : (c₀.insert s).lookup? s.name = some s := by rw [lookup?_insert, if_pos rfl]
    refine ⟨c, ?_, hto, fun name s' hs' => ?_, List.forall_mem_cons.2 ⟨fun s' hs' => ?_, hrecords⟩⟩
    · rw [List.foldlM_cons, hs]
      exact hc
    · refine hfrom name s' ?_
      rw [lookup?_insert]
      split
      · -- Entered twice, but as the same schema: both are that of the target.
        rename_i hname
        have htwice := h₀ name s' hs'
        rw [← hname, htarget] at htwice
        exact htwice
      · exact hs'
    · rw [hs] at hs'
      cases hs'
      exact hfrom _ _ hsame

end Catalog

end RelQuery
