/-
  A database: its catalog, its store and its settings.

  Opening a database may fail (`Checked`). Planning and querying read one, which changes at most
  the layout of its store (`Reading`); executing also changes the rest (`Action`). What was
  changed before a failure stays changed. All keep a journal.
-/
import RelQuery.Catalog
import RelQuery.Config

namespace RelQuery

open Log (Journal report)

structure Database where
  catalog : Catalog
  store : Store
  config : Config

instance : Inhabited Database := ⟨⟨.empty, default, {}⟩⟩

/-- A computation that may fail and reports what it does. -/
abbrev Checked (α : Type) := ExceptT Error (StateM Journal) α

/-- A computation that also visits the pages of a store. -/
abbrev Reading (α : Type) := ExceptT Error (StateT Store.Layout (StateM Journal)) α

/-- A computation that also changes a database. -/
abbrev Action (α : Type) := ExceptT Error (StateT Database (StateM Journal)) α

/-- A look into a store. -/
def Reading.of {α : Type} (f : Store.Layout → Except Error α × Store.Layout) : Reading α :=
  .mk (modifyGet f)

/-- A computation on the database as it is, which leaves it as it is but for the layout. -/
def Action.reading {α : Type} (f : Database → Reading α) : Action α :=
  .mk fun db => do
    let (result, layout) ← (f db).run db.store.layout
    return (result, { db with store := { db.store with layout } })

namespace Database

/-! ## Opening -/

/-- Loads the catalog of a store. -/
def load : Action Unit := do
  let (store, catalog) := Catalog.load (← getThe Database).store
  modifyThe Database fun db => { db with store }
  let catalog ← MonadExcept.ofExcept catalog
  modifyThe Database fun db => { db with catalog }
  report .info ("Loaded " ++ toString catalog.size ++ " relation(s) from catalog")

/-- The store that the settings ask for, before anything was done to it. -/
def freshStore (config : Config) : Store :=
  if config.dataDir.isSome then .durable else .volatile

/-- How opening the store is reported. -/
def openingText (config : Config) : String :=
  match config.dataDir with
  | some dir => "Opening sled storage at " ++ dir
  | none => "Using in-memory storage"

/-- The database on a store. -/
def openStore (config : Config) (store : Store) : Checked Database :=
  .mk do
    report .info (openingText config)
    let (result, db) ← load.run ⟨.empty, store, config⟩
    return result.map fun _ => db

/-- A database in which nothing was done yet. -/
def create (config : Config) : Checked Database := openStore config (freshStore config)

/-- Closes the database and opens it again: what was kept in memory only is lost. -/
def reopen (db : Database) : Checked Database := openStore db.config db.store.reopened

/-! ## Relations -/

/-- Makes changes of the store up to the first that fails. -/
def change (changes : List Store.Change) : Action Unit := do
  let (store, result) := (← getThe Database).store.applyAll changes
  modifyThe Database fun db => { db with store }
  MonadExcept.ofExcept result

def createRelation (s : Schema) : Action Unit := do
  MonadExcept.ofExcept ((← getThe Database).catalog.checkCreate s)
  change (Catalog.creation s)
  modifyThe Database fun db => { db with catalog := db.catalog.insert s }
  report .info ("Created relation " ++ s.name)

def dropRelation (name : String) : Action Unit := do
  MonadExcept.ofExcept ((← getThe Database).catalog.checkDrop name)
  change (Catalog.removal name)
  modifyThe Database fun db => { db with catalog := db.catalog.erase name }
  report .info ("Dropped relation " ++ name)

end Database

end RelQuery
