/-
  Tables, and the pages in which a durable store keeps them.

  A page holds the entries from its border up to the border of the next page. Whoever reads or
  writes at a key visits the page there: one that grew too large is split, and one that became
  too small is joined to the page before it. What a table holds does not depend on its pages;
  they say how much of it is read at once.
-/
import RelQuery.Bytes
import RelQuery.SortedMap

namespace RelQuery

/-- A table: values under keys, in ascending order of keys. -/
abbrev Table := SortedMap Bytes Bytes

namespace Pages

/-- The borders of a table's pages, ascending. The first page has none: nothing comes before
it. -/
abbrev Borders := List Bytes

/-- The border of the page to which a key belongs. -/
def lower? (borders : Borders) (key : Bytes) : Option Bytes :=
  (borders.filter fun b => compare b key ≠ .gt).getLast?

/-- The border of the page after the one to which a key belongs. -/
def upper? (borders : Borders) (key : Bytes) : Option Bytes :=
  borders.find? fun b => compare key b = .lt

theorem lt_of_upper? {borders : Borders} {key b : Bytes} (h : upper? borders key = some b) :
    compare key b = .lt := by
  simpa using List.find?_some h

/-- Entries in front of a border; all of them where there is none. -/
def below (entries : List (Bytes × Bytes)) : (border : Option Bytes) → List (Bytes × Bytes)
  | none => entries
  | some b => entries.takeWhile fun e => compare e.1 b = .lt

/-- The page to which a key belongs. -/
def page (borders : Borders) (table : Table) (key : Bytes) : List (Bytes × Bytes) :=
  below (table.onward ((lower? borders key).getD [])) (upper? borders key)

/-! ## Visits -/

/-- With more entries a page is split. -/
def maxEntries : Nat := 16

/-- With fewer entries a page is joined to the one before it. -/
def minEntries : Nat := 4

/-- How often the page at a key is split or joined in one visit at most. -/
def maxChanges : Nat := 3

/-- The shortest start of a key that comes after another key. -/
def separator : (left right : Bytes) → Bytes
  | a :: left, b :: right => if a = b then b :: separator left right else [b]
  | _, right => right.take 1

/-- The border in the middle of a page. -/
def middle? (entries : List (Bytes × Bytes)) : Option Bytes :=
  match entries.drop (entries.length / 2) with
  | left :: right :: _ => some (separator left.1 right.1)
  | _ => none

/-- Draws a border. -/
def split (borders : Borders) (b : Bytes) : Borders :=
  borders.filter (fun c => compare c b = .lt) ++ b :: borders.filter fun c => compare b c = .lt

/-- The borders after one change of the page at a key, if it needs one. -/
def changed? (table : Table) (key : Bytes) (borders : Borders) : Option Borders :=
  let entries := page borders table key
  if maxEntries < entries.length then (middle? entries).map (split borders)
  else if entries.length < minEntries then (lower? borders key).map borders.erase
  else none

/-- The borders after so many changes of the page at a key, or fewer if no more are needed. -/
def tidied (table : Table) (key : Bytes) : (changes : Nat) → Borders → Borders
  | 0, borders => borders
  | changes + 1, borders =>
    match changed? table key borders with
    | some borders => tidied table key changes borders
    | none => borders

/-- The borders after a visit of the page at a key. -/
def visit (table : Table) (key : Bytes) (borders : Borders) : Borders :=
  tidied table key maxChanges borders

/-- The keys at which a walk visits pages: the one it starts from, and the borders behind it up
to the entry where it stops, or all of them. -/
def stops (borders : Borders) (key : Bytes) (last : Option Bytes) : List Bytes :=
  key :: borders.filter fun b =>
    compare key b = .lt && last.all fun l => compare b l ≠ .gt

end Pages

end RelQuery
