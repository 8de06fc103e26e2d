/-
  What a restart makes of a creation or a removal of a relation that was interrupted.

  Each makes three changes of the store: it opens the partition of the records, puts or erases a
  record, and makes or forgets the partition of the relation. A restart reads the records and
  nothing else. So it finds the relation as it was if the record was not changed yet, and as it was
  meant to be if nothing was left to do; but when only the last change is missing, the records and
  the partitions disagree for good. Then a relation is listed that has no partition, or a partition
  is left behind, and the next relation of that name takes its rows over.

  Main statement: `Session.Attained.restart_interrupted`.
-/
import RelQuery.Proofs.Database

namespace RelQuery

open Log (Journal)
open Catalog (metadata)

/-- The store after the first so many of some changes. -/
def Store.afterFirst (s : Store) (k : Nat) (changes : List Change) : Store :=
  (s.applyAll (changes.take k)).1

namespace Database

/-- Every relation of the catalog has its partition, and every partition but those of the system is
that of a relation. -/
def InSync (db : Database) : Prop :=
  ∀ p, (db.store.table? p).isSome = true
    ↔ p ∈ system db.store.engine ∨ ∃ s, db.catalog.lookup? p = some s

/-- The changes of the store by which a request creates or removes the relation of that name. -/
inductive Writes (db : Database) : Request → String → List Store.Change → Prop
  | creation {name : String} {attributes : List Attribute} {primaryKey : Option Nat} {s : Schema}
    (hdef : Schema.define name attributes primaryKey = .ok s)
    (hnew : db.catalog.checkCreate s = .ok ()) :
    Writes db (.createTable name attributes primaryKey) name (Catalog.creation s)
  | removal {name : String} (hold : db.catalog.checkDrop name = .ok ()) :
    Writes db (.dropTable name) name (Catalog.removal name)

/-! ## Restarts -/

section

variable {db : Database}

theorem InSync.withLayout (h : db.InSync) (l : Store.Layout) : (db.withLayout l).InSync := by
  intro p
  rw [table?_withLayout]
  exact h p

theorem InSync.isSome_table? (h : db.InSync) {name : String}
    (hname : name ∉ system db.store.engine) :
    (db.store.table? name).isSome = (db.catalog.lookup? name).isSome := by
  rw [Bool.eq_iff_iff, h name, Option.isSome_iff_exists, or_iff_right hname]

/-- A restart gives the catalog of the records. -/
theorem openStore_of_storedIn {c : Catalog} {t : Table} {s : Store} (h : StoredIn c t)
    (ht : s.table? metadata = some t) (config : Config) (j : Journal) :
    ∃ l, ((openStore config s).run j).1 = .ok (withLayout ⟨c, s, config⟩ l) := by
  obtain ⟨l, hload⟩ := h.load ht
  exact ⟨l, openStore_of_ok hload config j⟩

/-- A restart after which the records and the partitions agree. -/
theorem Recorded.openStore (h : db.Recorded) (j : Journal) :
    ∃ db', ((Database.openStore db.config db.store).run j).1 = .ok db' ∧ db'.InSync := by
  obtain ⟨t, ht⟩ := h.exists_metadata
  obtain ⟨l, hopen⟩ := openStore_of_storedIn (h.stored t ht) ht db.config j
  exact ⟨_, hopen, InSync.withLayout h.partitions l⟩

end

/-! ## Interruptions -/

section

variable {db : Database} {request : Request} {name : String} {changes : List Store.Change}

theorem afterFirst_two {c d : Store.Change} {s s' : Store} (hs : s.create metadata = s)
    (h : s.apply c = .ok s') : s.afterFirst 2 [.create metadata, c, d] = s' := by
  show (s.applyAll [.create metadata, c]).1 = s'
  rw [Store.applyAll_cons rfl, hs, Store.applyAll_cons h]
  rfl

/-- Where a creation or a removal of a relation can stop: before its record is changed, with the
record changed but not its partition, and at the end. -/
theorem Writes.stages (hw : db.Writes request name changes) (h : db.Recorded)
    (hfits : request.FitsSchema) :
    ∃ halfway final c t, db.store.afterFirst 0 changes = db.store
      ∧ db.store.afterFirst 1 changes = db.store ∧ db.store.afterFirst 2 changes = halfway
      ∧ db.store.afterFirst 3 changes = final ∧ db.store.Turns halfway metadata (some t)
      ∧ StoredIn c t ∧ Recorded ⟨c, final, db.config⟩ ∧ name ∉ system db.store.engine
      ∧ ((db.store.table? name).isSome = true ↔ c.lookup? name = none) := by
  obtain ⟨t, ht⟩ := h.exists_metadata
  have hstored := h.stored t ht
  cases hw with
  | @creation _ _ _ s hdef hnew =>
    obtain ⟨listed, hput, hlisted, happly, hcreated⟩ := h.exists_creation hnew ht
    obtain ⟨hunreserved, -⟩ := Catalog.checkCreate_eq_ok_iff.1 hnew
    have hfinal : db.Changes _ ⟨db.catalog.insert s, listed.create s.name, db.config⟩ :=
      .created hdef hnew ht (hcreated.engine.trans hlisted.engine) hcreated.sound
        (fun q => by rw [hcreated.table?, hlisted.table?]) (Store.nextId_of_applyAll happly)
    obtain ⟨rfl, -⟩ := Schema.eq_of_define hdef
    have hlookup := Catalog.lookup?_insert db.catalog s s.name
    rw [if_pos rfl] at hlookup
    refine ⟨listed, _, db.catalog.insert s, _, rfl, h.create_metadata,
      afterFirst_two h.create_metadata hput, congrArg Prod.fst happly, hlisted,
      hstored.insert (fits_of_define hdef hfits), h.changes hfits hfinal, fun hmem => ?_, ?_⟩
    · rw [isReserved_of_mem_system hmem] at hunreserved
      cases hunreserved
    · rw [(h.table?_of_checkCreate hnew).2, hlookup]
      simp
  | removal hold =>
    obtain ⟨unlisted, final, herase, hunlisted, happly, hremoved⟩ := h.exists_removal hold ht
    obtain ⟨r, hr⟩ := Catalog.checkDrop_eq_ok_iff.1 hold
    have hfinal : db.Changes _ ⟨db.catalog.erase name, final, db.config⟩ :=
      .dropped ht hold (hremoved.engine.trans hunlisted.engine) hremoved.sound
        (fun q => by rw [hremoved.table?, hunlisted.table?]) (Store.nextId_of_applyAll happly)
    have hlookup := Catalog.lookup?_erase db.catalog name name
    rw [if_pos rfl] at hlookup
    refine ⟨unlisted, final, db.catalog.erase name, _, rfl, h.create_metadata,
      afterFirst_two h.create_metadata herase, congrArg Prod.fst happly, hunlisted,
      hstored.erase name, h.changes hfits hfinal, h.not_mem_system hr _, ?_⟩
    rw [hlookup, h.partitions]
    simpa using .inr ⟨r, hr⟩

/-- A relation that is made where a partition of its name is left holds what is left there. -/
theorem creation_of_isSome {s : Store} {t u : Table} {r : Schema} (hs : s.Sound)
    (ht : s.table? metadata = some t) (hu : s.table? r.name = some u) (hne : r.name ≠ metadata) :
    ∃ s', s.applyAll (Catalog.creation r) = (s', .ok ()) ∧ s'.table? r.name = some u := by
  obtain ⟨id, hid, -⟩ := Store.table?_eq_some_iff.1 ht
  obtain ⟨listed, hput, hlisted⟩ := Store.exists_put hs ht (Utf8.encode r.name) r.encode
  have hthere : listed.table? r.name = some u := by rw [hlisted.table?, if_neg hne.symm, hu]
  have hcreate := Store.turns_create hlisted.sound r.name
  refine ⟨listed.create r.name, ?_, ?_⟩
  · rw [Catalog.creation, Store.applyAll_cons rfl, Store.create_of_isSome hid,
      Store.applyAll_cons (c := .put metadata (Utf8.encode r.name) r.encode) hput,
      Store.applyAll_cons rfl]
    rfl
  · rw [hcreate.table?, if_pos rfl, hthere]
    rfl

/-- A restart when the record of a relation was changed and its partition was not. -/
theorem openStore_halfway {halfway : Store} {c : Catalog} {t : Table}
    (hturns : db.store.Turns halfway metadata (some t)) (hstored : StoredIn c t)
    (hsystem : name ∉ system db.store.engine)
    (hlisted : (db.store.table? name).isSome = true ↔ c.lookup? name = none) (j : Journal) :
    ∃ db', ((openStore db.config halfway).run j).1 = .ok db' ∧ ¬ db'.InSync
      ∧ (db'.catalog.lookup? name = none ↔ (db'.store.table? name).isSome = true)
      ∧ ∀ r u, r.name = name → db'.catalog.checkCreate r = .ok () →
        db'.store.table? name = some u → ∃ store,
          db'.store.applyAll (Catalog.creation r) = (store, .ok ())
            ∧ store.table? name = some u := by
  have hmeta := (hturns.table? metadata).trans (if_pos rfl)
  obtain ⟨l, hopen⟩ := openStore_of_storedIn hstored hmeta db.config j
  have hne : name ≠ metadata := fun heq => hsystem (heq ▸ metadata_mem_system _)
  have hleft : ∀ p, ((Database.mk c halfway db.config).withLayout l).store.table? p
      = if metadata = p then some t else db.store.table? p := fun p =>
    (table?_withLayout ..).trans (hturns.table? p)
  have hthere := (hleft name).trans (if_neg hne.symm)
  have hdiffer : c.lookup? name = none
      ↔ (((Database.mk c halfway db.config).withLayout l).store.table? name).isSome = true := by
    rw [hthere, hlisted]
  refine ⟨_, hopen, fun hsync => ?_, hdiffer, ?_⟩
  · have hsystem : name ∉ system halfway.engine := hturns.engine ▸ hsystem
    have hsame : _ = (c.lookup? name).isSome := hsync.isSome_table? hsystem
    rw [hsame] at hdiffer
    cases hc : c.lookup? name <;> simp [hc] at hdiffer
  · rintro r u rfl - hu
    exact creation_of_isSome (hturns.sound.congr rfl rfl) ((hleft metadata).trans (if_pos rfl)) hu
      hne

end

end Database

/-! ## Restarts after interruptions -/

namespace Session

open Database (InSync)

variable {db : Database} {n : Nat} {request : Request} {name : String}
  {changes : List Store.Change}

/-- If the process stops after `k` of the three changes that a request `Writes`, a restart is
`InSync` unless `k = 2`. Then the relation is listed without a partition, or not listed though its
partition is there, and the next relation of that name starts with what it holds. -/
theorem Attained.restart_interrupted (h : Attained Request.FitsSchema n db)
    (hfits : request.FitsSchema) (hw : db.Writes request name changes) {k : Nat} (hk : k ≤ 3)
    (j : Journal) :
    ∃ db', ((Database.openStore db.config (db.store.afterFirst k changes)).run j).1 = .ok db'
      ∧ (db'.InSync ↔ k ≠ 2)
      ∧ (k = 2 → (db'.catalog.lookup? name = none ↔ (db'.store.table? name).isSome = true)
        ∧ ∀ r u, r.name = name → db'.catalog.checkCreate r = .ok () →
          db'.store.table? name = some u → ∃ store,
            db'.store.applyAll (Catalog.creation r) = (store, .ok ())
              ∧ store.table? name = some u) := by
  have hrecorded := h.recorded fun _ => id
  obtain ⟨halfway, final, c, t, h₀, h₁, h₂, h₃, hturns, hstored, hfinal, hsystem, hlisted⟩ :=
    hw.stages hrecorded hfits
  match k, hk with
  | 0, _ =>
    obtain ⟨db', hopen, hsync⟩ := hrecorded.openStore j
    rw [h₀]
    exact ⟨db', hopen, by simpa using hsync, nofun⟩
  | 1, _ =>
    obtain ⟨db', hopen, hsync⟩ := hrecorded.openStore j
    rw [h₁]
    exact ⟨db', hopen, by simpa using hsync, nofun⟩
  | 2, _ =>
    obtain ⟨db', hopen, hsync, hleft⟩ :=
      Database.openStore_halfway hturns hstored hsystem hlisted j
    rw [h₂]
    exact ⟨db', hopen, by simpa using hsync, fun _ => hleft⟩
  | 3, _ =>
    obtain ⟨db', hopen, hsync⟩ := hfinal.openStore j
    rw [h₃]
    exact ⟨db', hopen, by simpa using hsync, nofun⟩

/-- When the removal of the relation of numbers lacks its last change, a restart leaves the
partition without the relation. -/
theorem restart_interrupted_withNumbers :
    ∃ db', ((Database.openStore withNumbers.config (withNumbers.store.afterFirst 2
        (Catalog.removal "a"))).run []).1 = .ok db' ∧ ¬ db'.InSync := by
  have hw : withNumbers.Writes (.dropTable "a") "a" (Catalog.removal "a") := .removal rfl
  have hfits : Request.FitsSchema (.dropTable "a") := trivial
  obtain ⟨n, h⟩ := reachable_withNumbers.exists_attained
  obtain ⟨db', hopen, hsync, -⟩ := h.restart_interrupted hfits hw (Nat.le_succ 2) []
  exact ⟨db', hopen, fun h => hsync.1 h rfl⟩

end Session

end RelQuery
