/-
  The key-value store: named partitions, each holding a table of byte strings.

  A partition's name leads to a table, and removing the partition forgets the name. A store in
  memory lets the cursors that are open on the table go on: they remember the last key they
  returned and resume strictly after it, so writes never invalidate them. A cursor of a durable
  store copies a page when it comes to it, so it sees no later writes to that page; it copies
  none of a table whose partition is gone.

  Whoever reads a durable store may change how its entries lie in pages, the layout, but never
  the entries. So a layout is a part of its own, and reading gives a new one back.

  Main statement: an entry that a cursor gives is the first of those ahead of it, and the others
  are ahead of it then (`Cursor.ahead_of_next`).
-/
import RelQuery.Error
import RelQuery.Store.Pages

namespace RelQuery

/-- Tables are numbered in the order in which they were made, and never taken away. -/
abbrev TableId := Nat

/-- How a store keeps what it holds. -/
inductive Store.Engine where
  /-- In memory, until it is closed. -/
  | volatile
  /-- On disk, in pages. -/
  | durable
  deriving DecidableEq, Repr

/-- The borders of the pages of each table; a table that is not named is one page. -/
abbrev Store.Layout := SortedMap TableId Pages.Borders

structure Store where
  engine : Store.Engine
  tables : List Table
  /-- Only a durable store goes by its layout. -/
  layout : Store.Layout
  partitions : SortedMap String TableId
  /-- The next number that `freshId` gives. -/
  nextId : UInt64
  /-- The start of the block from which `freshId` last gave a number. -/
  currentBlock : UInt64
  deriving DecidableEq

namespace Store

/-- The partition that a durable store has from the start and for good. -/
def builtIn : String := "__sled__default"

/-- A store in memory before anything was done to it. -/
def volatile : Store := ⟨.volatile, [], .empty, .empty, 0, 0⟩

/-- A store on disk before anything was done to it. -/
def durable : Store := ⟨.durable, [.empty], .empty, ⟨[(builtIn, 0)], by simp⟩, 0, 0⟩

instance : Inhabited Store := ⟨volatile⟩

/-! ## Reading -/

/-- The table of a partition. -/
def tableId? (s : Store) (partition : String) : Option TableId := s.partitions.find? partition

/-- The table of a partition that must be there. -/
def openTable (s : Store) (partition : String) : Except Error TableId :=
  match s.tableId? partition with
  | some id => .ok id
  | none => .error (.missingPartition partition)

/-- What a table holds. -/
def table (s : Store) (id : TableId) : Table := (s.tables[id]?).getD .empty

/-- Whether a partition leads to a table. -/
def isReachable (s : Store) (id : TableId) : Bool := s.partitions.entries.any (·.2 = id)

/-- The contents of a partition that must be there. -/
def contents (s : Store) (partition : String) : Except Error Table :=
  (s.openTable partition).map s.table

def get (s : Store) (partition : String) (key : Bytes) : Except Error (Option Bytes) := do
  return (← s.contents partition).find? key

/-! ## Pages -/

/-- The borders of the pages of a table. -/
def borders (s : Store) (id : TableId) : Pages.Borders := (s.layout.find? id).getD []

/-- Visits the page to which a key belongs, in a store that has pages. -/
def visit (s : Store) (id : TableId) (key : Bytes) : Store :=
  match s.engine with
  | .volatile => s
  | .durable =>
    { s with layout := s.layout.insert id (Pages.visit (s.table id) key (s.borders id)) }

/-- Visits the pages from a key on up to the one of the last entry that is read. -/
def visitFrom (s : Store) (id : TableId) (key : Bytes) (last : Option Bytes) : Store :=
  (Pages.stops (s.borders id) key last).foldl (visit · id) s

/-- Reads the entries of a partition page by page, up to the first of some kind or all. -/
def walkTo (s : Store) (partition : String) (isLast : Bytes × Bytes → Bool) :
    Except Error (Table × Store) := do
  let id ← s.openTable partition
  let t := s.table id
  return (t, s.visitFrom id [] ((t.entries.find? isLast).map (·.1)))

/-- Reads all entries of a partition page by page. -/
def walk (s : Store) (partition : String) : Except Error (Table × Store) :=
  s.walkTo partition fun _ => false

/-- Looks a key up in its page. -/
def lookUp (s : Store) (partition : String) (key : Bytes) :
    Except Error (Option Bytes × Store) := do
  let id ← s.openTable partition
  return ((s.table id).find? key, s.visit id key)

@[simp] theorem tables_visit (s : Store) (id : TableId) (key : Bytes) :
    (s.visit id key).tables = s.tables := by
  unfold visit
  split <;> rfl

@[simp] theorem partitions_visit (s : Store) (id : TableId) (key : Bytes) :
    (s.visit id key).partitions = s.partitions := by
  unfold visit
  split <;> rfl

/-! ## Writing -/

/-- Opens a partition, and makes it when it is not there. -/
def create (s : Store) (partition : String) : Store :=
  match s.tableId? partition with
  | some _ => s
  | none =>
    { s with
      tables := s.tables ++ [.empty]
      partitions := s.partitions.insert partition s.tables.length }

/-- Replaces what a table holds. -/
def setTable (s : Store) (id : TableId) (t : Table) : Store :=
  { s with tables := s.tables.set id t }

/-- Puts an entry into its page. -/
def write (s : Store) (id : TableId) (key value : Bytes) : Store :=
  (s.visit id key).setTable id ((s.table id).insert key value)

def put (s : Store) (partition : String) (key value : Bytes) : Except Error Store := do
  return s.write (← s.openTable partition) key value

/-- Takes an entry away, if it is there. -/
def erase (s : Store) (partition : String) (key : Bytes) : Except Error Store := do
  let id ← s.openTable partition
  return (s.visit id key).setTable id ((s.table id).erase key)

/-- Forgets a partition. -/
def remove (s : Store) (partition : String) : Except Error Store := do
  if s.engine ≠ .volatile ∧ partition = builtIn then throw .partitionNotRemovable
  let _ ← s.openTable partition
  return { s with partitions := s.partitions.erase partition }

/-- How many numbers a durable store sets aside at once. -/
def blockSize : UInt64 := 1000000

/-- A number that was not given before. -/
def freshId (s : Store) : UInt64 × Store :=
  (s.nextId, { s with
    nextId := s.nextId + 1
    currentBlock := s.nextId / blockSize * blockSize })

/-- What is left of a store that is closed and opened again. In memory that is nothing, but for
the tables that are still being read. On disk it is everything; numbers go on after the blocks
that may have been set aside. -/
def reopened (s : Store) : Store :=
  match s.engine with
  | .volatile => { s with partitions := .empty, nextId := 0, currentBlock := 0 }
  | .durable => { s with nextId := s.currentBlock + 2 * blockSize }

/-! ## Sequences of changes -/

/-- One change of the stored partitions. -/
inductive Change where
  | create (partition : String)
  | put (partition : String) (key value : Bytes)
  | erase (partition : String) (key : Bytes)
  | remove (partition : String)
  deriving DecidableEq, Repr

def apply (s : Store) : Change → Except Error Store
  | .create p => .ok (s.create p)
  | .put p k v => s.put p k v
  | .erase p k => s.erase p k
  | .remove p => s.remove p

/-- Applies changes in order up to the first that fails; those before it stay. -/
def applyAll (s : Store) : List Change → Store × Except Error Unit
  | [] => (s, .ok ())
  | c :: changes =>
    match s.apply c with
    | .ok s => s.applyAll changes
    | .error e => (s, .error e)

/-! ## Cursors -/

/-- Where a cursor stands. -/
inductive Cursor.Place where
  /-- In the table, behind a key, or before the first one. -/
  | after (last : Option Bytes)
  /-- In the copy of a page, in front of these entries; the next page starts at the border. -/
  | before (entries : List (Bytes × Bytes)) (border : Option Bytes)
  deriving DecidableEq, Repr

/-- A walk through a table in the order of its keys. -/
structure Cursor where
  partition : String
  table : TableId
  place : Cursor.Place
  deriving DecidableEq, Repr

namespace Cursor

/-- Before the first entry. -/
def start (partition : String) (table : TableId) : Cursor := ⟨partition, table, .after none⟩

/-- Back to the first entry. -/
def restart (c : Cursor) : Cursor := .start c.partition c.table

/-- The entries that are still to come, as the table stands. -/
def ahead (c : Cursor) (s : Store) : List (Bytes × Bytes) :=
  match c.place with
  | .after last => (s.table c.table).after last
  | .before entries none => entries
  | .before entries (some border) => entries ++ (s.table c.table).onward border

/-- The key whose page a cursor in a durable store has to copy before it can go on. -/
def pageKey? (c : Cursor) : Option Bytes :=
  match c.place with
  | .after last => some (last.getD [])
  | .before [] border => border
  | .before (_ :: _) _ => none

/-- The cursor in a copy of the page of the first entry ahead, as the page is in a store. -/
def copied (c : Cursor) (s : Store) : Cursor :=
  match c.ahead s with
  | [] => { c with place := .before [] none }
  | (key, value) :: entries =>
    let border := Pages.upper? (s.borders c.table) key
    { c with place := .before (Pages.below ((key, value) :: entries) border) border }

/-- The cursor ready to read, and the layout then. In a durable store the cursor stands in a
copy; it visits all pages on the way to its next entry. -/
def settle (c : Cursor) (s : Store) : Except Error (Cursor × Layout) :=
  match s.engine, c.pageKey? with
  | .durable, some key =>
    if s.isReachable c.table then
      let visited := s.visitFrom c.table key ((c.ahead s).head?.map (·.1))
      .ok (c.copied visited, visited.layout)
    else .error (.tableGone c.partition)
  | _, _ => .ok (c, s.layout)

/-- The cursor behind the entry that comes next, which has that key. -/
def behind (c : Cursor) (key : Bytes) : Cursor :=
  match c.place with
  | .before (_ :: entries) border => { c with place := .before entries border }
  | _ => { c with place := .after (some key) }

/-- The next entry, the cursor behind it and the layout then; an exhausted cursor stays where
it is. -/
def next (c : Cursor) (s : Store) : Except Error (Option (Bytes × Bytes)) × Cursor × Layout :=
  match c.settle s with
  | .error e => (.error e, c, s.layout)
  | .ok (c, layout) =>
    match c.ahead s with
    | [] => (.ok none, c, layout)
    | e :: _ => (.ok (some e), c.behind e.1, layout)

/-! ### What is ahead -/

/-- Without a copy, what is ahead is the last part of the table. -/
theorem ahead_suffix {c : Cursor} {key : Bytes} (h : c.pageKey? = some key) (s : Store) :
    c.ahead s <:+ (s.table c.table).entries := by
  obtain ⟨partition, table, place⟩ := c
  cases place with
  | after last => exact SortedMap.after_suffix _ _
  | before entries border =>
    cases entries with
    | nil =>
      cases border with
      | none => cases h
      | some b => exact SortedMap.onward_suffix _ _
    | cons => cases h

/-- What is ahead does not depend on the layout. -/
theorem ahead_congr {s t : Store} (h : s.tables = t.tables) (c : Cursor) :
    c.ahead s = c.ahead t := by
  simp only [ahead, Store.table, h]

theorem ahead_copied {c : Cursor} {key : Bytes} (h : c.pageKey? = some key) (s : Store) :
    (c.copied s).ahead s = c.ahead s := by
  have hs := ahead_suffix h s
  unfold copied
  split
  · rename_i he
    rw [he]
    rfl
  · rename_i k value entries he
    rw [he] at hs ⊢
    generalize hb : Pages.upper? (s.borders c.table) k = border
    cases border with
    | none => rfl
    | some b => exact SortedMap.takeWhile_append_onward _ hs (Pages.lt_of_upper? hb)

@[simp] theorem tables_visitFrom (s : Store) (id : TableId) (key : Bytes) (last : Option Bytes) :
    (s.visitFrom id key last).tables = s.tables := by
  unfold visitFrom
  generalize Pages.stops (s.borders id) key last = keys
  induction keys generalizing s with
  | nil => rfl
  | cons k keys ih => rw [List.foldl_cons, ih, tables_visit]

theorem ahead_of_settle {c d : Cursor} {s : Store} {layout : Layout}
    (h : c.settle s = .ok (d, layout)) : d.ahead s = c.ahead s := by
  unfold settle at h
  split at h
  · rename_i key _ hk
    split at h
    · cases h
      have ht := tables_visitFrom s c.table key ((c.ahead s).head?.map (·.1))
      rw [ahead_congr ht.symm, ahead_copied hk, ahead_congr ht]
    · cases h
  · cases h; rfl

theorem ahead_behind {c : Cursor} {s : Store} {e : Bytes × Bytes} {es : List (Bytes × Bytes)}
    (h : c.ahead s = e :: es) : (c.behind e.1).ahead s = es := by
  obtain ⟨partition, table, place⟩ := c
  cases place with
  | after last =>
    exact SortedMap.after_of_suffix _ (h ▸ SortedMap.after_suffix _ _)
  | before entries border =>
    cases entries with
    | nil =>
      cases border with
      | none => cases h
      | some b => exact SortedMap.after_of_suffix _ (h ▸ SortedMap.onward_suffix _ _)
    | cons d entries =>
      cases border <;> (cases h; rfl)

/-- The next entry is the first of those ahead, and the cursor has the others ahead then. -/
theorem ahead_of_next {c d : Cursor} {s : Store} {e : Bytes × Bytes} {layout : Layout}
    (h : c.next s = (.ok (some e), d, layout)) : c.ahead s = e :: d.ahead s := by
  unfold next at h
  split at h
  · cases h
  · rename_i c' _ hc
    rw [← ahead_of_settle hc]
    split at h
    · cases h
    · rename_i he
      cases h
      rw [he, ahead_behind he]

end Cursor

/-- A cursor on a partition that must be there. -/
def cursor (s : Store) (partition : String) : Except Error Cursor :=
  (s.openTable partition).map (.start partition)

end Store

end RelQuery
