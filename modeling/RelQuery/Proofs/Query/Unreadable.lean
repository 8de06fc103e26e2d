/-
  Records that cannot be read back, and the queries that come to them.

  The bytes of a string are counted in a field of four, so a longer string is stored under a count
  that is not its own, and its record is no record of its relation (`Tuple.exists_decode_error`). A
  query fails at such a record if it comes to it. Nested loops come to the relation on their left
  first, and to no other if that is empty (`Execution.query_of_asksFirst`).
-/
import RelQuery.Proofs.Operator.Anew
import RelQuery.Proofs.Query.Select
import RelQuery.Proofs.Record.Canonical
import RelQuery.Proofs.Statement.Alike

namespace RelQuery

open Store (Layout)

/-- A row of one value is not read back if the value does not fit its record. -/
theorem Tuple.exists_decode_error {t : Tuple} {d : Datum} (ht : t.values = [d]) (hd : ¬ d.Fits) :
    ∃ e, decode t.schema t.encode = .error e ∧ e.IsStorageFault := by
  cases h : decode t.schema t.encode with
  | error e => exact ⟨e, rfl, decode_failsOnly _ _ e h⟩
  | ok u =>
    obtain ⟨hschema, hfits, hrecord⟩ := decode_eq_ok_iff.1 h
    have htypes : u.values.map (·.type) = [d.type] := by
      rw [u.typed, hschema, ← t.typed, ht, List.map_singleton]
    obtain ⟨d', hvalues, htype⟩ := List.map_eq_singleton_iff.1 htypes
    rw [encode, encode, hvalues, ht, List.flatMap_singleton, List.flatMap_singleton] at hrecord
    cases Datum.encode_injective htype hrecord
    exact absurd (hfits d (hvalues ▸ List.mem_singleton_self d)) hd

/-- The first entry that a cursor gives is the first of its table. -/
theorem Store.next_start {store : Store} {partition : String} {table : Table} {id : TableId}
    (hcontents : store.contents partition = .ok table) (hid : store.openTable partition = .ok id)
    (l : Layout) : ∃ c m, (Cursor.start partition id).next { store with layout := l }
      = (.ok table.entries.head?, c, m) := by
  obtain ⟨_, hid', rfl⟩ := contents_eq_ok_iff_openTable.1 hcontents
  cases hid.symm.trans hid'
  obtain ⟨c, m, hnext, -⟩ := Cursor.next_of_openTable (c := .start partition id) hid l
  exact ⟨c, m, hnext⟩

/-! ## What is asked first -/

namespace Operator

/-- The operator asks the scan of this relation before it asks another. -/
inductive AsksFirst (r : Schema) : Operator → Prop
  | scan (filter : List Predicate) : AsksFirst r (.scan r filter)
  | nestedLoop {left : Operator} (on : Predicate) (right : Operator) (h : AsksFirst r left) :
    AsksFirst r (.nestedLoop on left right)

/-- What that scan answers is the answer of an operator that was just opened, unless it is a row. -/
theorem AsksFirst.next {store : Store} {r : Schema} {op : Operator} (h : op.AsksFirst r)
    {answer : Except Error (Option Row)} (hanswer : ∀ row, answer ≠ .ok (some row))
    (hscan : ∀ id, store.openTable r.name = .ok id → ∀ filter k, ∃ t m,
      (Source.scan store r filter).next (some (.start r.name id)) k = (answer, t, m))
    {l m : Layout} {s : op.State} (hs : op.acquire store op.initial l = (.ok (), s, m))
    (k : Layout) : ∃ t m, (op.source store).next s k = (answer, t, m) := by
  induction h generalizing l m with
  | scan filter =>
    obtain ⟨id, hopen, rfl⟩ := exists_of_acquire_scan hs
    exact hscan id hopen filter k
  | nestedLoop on right h ih =>
    obtain ⟨t, _, u, hleft, -, rfl⟩ := exists_of_acquire_nestedLoop hs
    obtain ⟨t', i, hnext⟩ := ih hleft
    rcases answer with e | _ | row
    · exact ⟨_, _, Source.pull_of_next hnext⟩
    · exact ⟨_, _, Source.pull_of_next hnext⟩
    · exact absurd rfl (hanswer row)

end Operator

namespace Execution

variable {store : Store} {r : Schema} {outs : List Term} {input : Plan} {op : Operator}
  {table : Table} {l : Layout}

/-- What is asked first answers a query, if it fails or has no row. -/
theorem query_of_asksFirst (hop : Operator.ofPlan input = .ok op) (h : op.AsksFirst r)
    (answer : Except Error (Option Row)) (hanswer : ∀ row, answer ≠ .ok (some row))
    (hscan : ∀ id, store.openTable r.name = .ok id → ∀ filter k, ∃ t m,
      (Source.scan store r filter).next (some (.start r.name id)) k = (answer, t, m))
    (hopens : ∃ s m, op.acquire store op.initial l = (.ok (), s, m)) :
    (query store (.project outs input) l).1
      = answer.map fun _ => ⟨outs.map Term.text, [], 0⟩ := by
  obtain ⟨s, m, hacquire⟩ := hopens
  obtain ⟨t, k, hnext⟩ := h.next hanswer hscan hacquire m
  have hplan : Operator.ofPlan (.project outs input) = .ok (.project outs op) := by
    rw [Operator.ofPlan, hop]
    rfl
  rw [query, hplan]
  dsimp only
  rw [hacquire]
  dsimp only
  rw [Source.drain_of_next hnext]
  rcases answer with e | _ | row
  · rfl
  · rfl
  · exact absurd rfl (hanswer row)

/-- A query fails if the first record that it comes to cannot be read. -/
theorem query_of_unreadable (hop : Operator.ofPlan input = .ok op) (h : op.AsksFirst r)
    (hcontents : store.contents r.name = .ok table) {e : Bytes × Bytes}
    (hfirst : table.entries.head? = some e) {err : Error}
    (hdecode : Tuple.decode r e.2 = .error err)
    (hopens : ∃ s m, op.acquire store op.initial l = (.ok (), s, m)) :
    (query store (.project outs input) l).1 = .error err := by
  refine query_of_asksFirst hop h (.error err) nofun (fun id hid filter k => ?_) hopens
  obtain ⟨c, m, hnext⟩ := Store.next_start hcontents hid k
  rw [hfirst] at hnext
  refine ⟨some c, m, Source.next_scan ?_⟩
  rw [Source.firstMatch_of_next hnext]
  simp only [Source.searchRound, Source.matchVerdict, hdecode]
  rfl

/-- It has no rows if the first relation that it comes to is empty. -/
theorem query_of_empty (hop : Operator.ofPlan input = .ok op) (h : op.AsksFirst r)
    (hcontents : store.contents r.name = .ok table) (hempty : table.entries = [])
    (hopens : ∃ s m, op.acquire store op.initial l = (.ok (), s, m)) :
    (query store (.project outs input) l).1 = .ok ⟨outs.map Term.text, [], 0⟩ := by
  refine query_of_asksFirst hop h (.ok none) nofun (fun id hid filter k => ?_) hopens
  obtain ⟨c, m, hnext⟩ := Store.next_start hcontents hid k
  rw [hempty] at hnext
  exact ⟨some c, m, Source.next_scan (Source.firstMatch_of_next hnext)⟩

end Execution

namespace Session.Statement

variable {db : Database} {statement : Statement} {q : RelQuery.Query} {outs : List Term}
  {input : Plan} {op : Operator} {r : Schema} {table : Table}

theorem run_select_of_unreadable (hq : statement.request? = .ok (.select q))
    (hplan : (Binding.query db q).Gives (.ok (.project outs input)))
    (hop : Operator.ofPlan input = .ok op) (h : op.AsksFirst r)
    (hopens : ∀ l, ∃ s m, op.acquire (db.withLayout l).store op.initial l = (.ok (), s, m))
    (hcontents : db.store.contents r.name = .ok table) {e : Bytes × Bytes}
    (hfirst : table.entries.head? = some e) {err : Error}
    (hdecode : Tuple.decode r e.2 = .error err) (j : Log.Journal) :
    statement.run.result db j = .error err := by
  have hcontents : ∀ l, (db.withLayout l).store.contents r.name = .ok table := fun _ => hcontents
  exact run_select_of_plan hq hplan
    (fun l => Execution.query_of_unreadable hop h (hcontents l) hfirst hdecode (hopens l)) j

theorem run_select_of_empty (hq : statement.request? = .ok (.select q))
    (hplan : (Binding.query db q).Gives (.ok (.project outs input)))
    (hop : Operator.ofPlan input = .ok op) (h : op.AsksFirst r)
    (hopens : ∀ l, ∃ s m, op.acquire (db.withLayout l).store op.initial l = (.ok (), s, m))
    (hcontents : db.store.contents r.name = .ok table) (hempty : table.entries = [])
    (j : Log.Journal) :
    statement.run.result db j = .ok ⟨⟨outs.map Term.text, [], 0⟩, true⟩ := by
  have hcontents : ∀ l, (db.withLayout l).store.contents r.name = .ok table := fun _ => hcontents
  exact run_select_of_ok hq hplan
    (fun l => Execution.query_of_empty hop h (hcontents l) hempty (hopens l)) j

end Session.Statement

/-! ## A relation of texts -/

/-- A relation of one string. -/
def Schema.texts (name : String) : Schema :=
  ⟨name, [⟨"s", .string⟩], none, by simp, by simp, by simp⟩

/-- The letter a, as often as that. -/
def longText (n : Nat) : String := String.ofList (List.replicate n 'a')

theorem length_encode_longText (n : Nat) : (Utf8.encode (longText n)).length = n := by
  rw [Utf8.encode, longText, String.toList_ofList]
  induction n with
  | zero => rfl
  | succ n ih =>
    rw [List.replicate_succ, List.flatMap_cons, List.length_append, ih, Nat.add_comm]
    rfl

theorem longText_not_fits {n : Nat} (h : 2 ^ 32 ≤ n) : ¬ (Datum.string (longText n)).Fits := by
  rw [Datum.Fits, length_encode_longText]
  exact Nat.not_lt.2 h

namespace Session

/-- An empty relation of numbers and an empty relation of texts. -/
def withTexts : Database :=
  (Statement.request (.createTable "b" [⟨"s", .string⟩] none)).run.after withNumbers []

/-- The same, once a text was inserted. -/
def withText (text : String) : Database :=
  (Statement.request (.insert "b" [[.string text]])).run.after withTexts []

/-- The row that is inserted then. -/
def rowOf (text : String) : Tuple := ⟨.texts "b", [.string text], rfl⟩

theorem exists_decode_rowOf {text : String} (htext : ¬ (Datum.string text).Fits) :
    ∃ e, Tuple.decode (.texts "b") (rowOf text).encode = .error e ∧ e.IsStorageFault :=
  Tuple.exists_decode_error (t := rowOf text) rfl htext

theorem exists_first_withText (text : String) : ∃ table key,
    (withText text).store.contents "b" = .ok table
      ∧ table.entries.head? = some (key, (rowOf text).encode) :=
  ⟨_, _, rfl, rfl⟩

theorem exists_attained_withText (text : String) :
    ∃ n, Attained (fun _ => True) n (withText text) := by
  obtain ⟨n, h⟩ := reachable_withNumbers.exists_attained
  have hcreated := (h.mono fun _ _ => trivial).executed
    (.request (.createTable "b" [⟨"s", .string⟩] none)) [] fun _ _ _ => trivial
  exact ⟨_, hcreated.executed (.request (.insert "b" [[.string text]])) [] fun _ _ _ => trivial⟩

/-- The plan of a query is there before the text is. -/
theorem query_gives_of_planOf (text : String) {q : Query} {p : Plan}
    (h : Binding.planOf withTexts q = .ok p) : (Binding.query (withText text) q).Gives (.ok p) := by
  obtain ⟨n, hattained⟩ := exists_attained_withText text
  have hsame : Binding.planOf (withText text) q = Binding.planOf withTexts q :=
    Binding.planOf_congr q rfl fun _ _ => rfl
  rw [← h, ← hsame]
  exact query_gives_of_inStep hattained.inStep q

/-- The numbers that are equal to a text. -/
def numbersInTexts : Query where
  relations := ["a", "b"]
  comparisons := [⟨.attr ⟨some "a", "n"⟩, .attr ⟨some "b", "s"⟩⟩]
  outputs := [⟨some "a", "n"⟩]
  distinct := false
  orderBy := none

/-- The same, asked for the other way. -/
def numbersInTextsExchanged : Query :=
  { numbersInTexts with comparisons := [⟨.attr ⟨some "b", "s"⟩, .attr ⟨some "a", "n"⟩⟩] }

/-- Asked for from the numbers, there are none to compare with the text. -/
theorem run_numbersInTexts (text : String) (j : Log.Journal) :
    (Statement.request (.select numbersInTexts)).run.result (withText text) j
      = .ok ⟨⟨["a.n"], [], 0⟩, true⟩ := by
  have hplan : Binding.planOf withTexts numbersInTexts
      = .ok (.project [.attr ⟨.numbers "a", 0⟩] (.join .nestedLoop
        ⟨.attr ⟨.numbers "a", 0⟩, .attr ⟨.texts "b", 0⟩⟩
        (.scan (.numbers "a") []) (.scan (.texts "b") []))) := by decide +kernel
  have hempty : (withText text).store.contents "a" = .ok .empty := rfl
  exact Statement.run_select_of_empty rfl (query_gives_of_planOf text hplan) rfl
    (.nestedLoop _ _ (.scan _)) (fun _ => ⟨_, _, rfl⟩) hempty rfl j

/-- Asked for from the texts, the record of the text comes first. -/
theorem run_numbersInTextsExchanged {text : String} (htext : ¬ (Datum.string text).Fits)
    (j : Log.Journal) :
    ∃ e, (Statement.request (.select numbersInTextsExchanged)).run.result (withText text) j
      = .error e ∧ e.IsStorageFault := by
  have hplan : Binding.planOf withTexts numbersInTextsExchanged
      = .ok (.project [.attr ⟨.numbers "a", 0⟩] (.join .nestedLoop
        ⟨.attr ⟨.texts "b", 0⟩, .attr ⟨.numbers "a", 0⟩⟩
        (.scan (.texts "b") []) (.scan (.numbers "a") []))) := by decide +kernel
  obtain ⟨table, key, hcontents, hfirst⟩ := exists_first_withText text
  obtain ⟨e, hdecode, he⟩ := exists_decode_rowOf htext
  exact ⟨e, Statement.run_select_of_unreadable rfl (query_gives_of_planOf text hplan) rfl
    (.nestedLoop _ _ (.scan _)) (fun _ => ⟨_, _, rfl⟩) hcontents hfirst hdecode j, he⟩

/-- The texts that are equal to a number. -/
def textsThatAreSeven : Query where
  relations := ["b"]
  comparisons := [⟨.attr ⟨some "b", "s"⟩, .constant (.int 7)⟩]
  outputs := [⟨some "b", "s"⟩]
  distinct := false
  orderBy := none

theorem planOf_textsThatAreSeven (text : String) :
    (Binding.query (withText text) textsThatAreSeven).Gives (.ok (.project [.attr ⟨.texts "b", 0⟩]
      (.scan (.texts "b") [⟨.attr ⟨.texts "b", 0⟩, .constant (.int 7)⟩]))) :=
  query_gives_of_planOf text (by decide +kernel)

/-- The record is read before it is compared with anything. -/
theorem run_textsThatAreSeven {text : String} (htext : ¬ (Datum.string text).Fits)
    (j : Log.Journal) :
    ∃ e, (Statement.request (.select textsThatAreSeven)).run.result (withText text) j = .error e
      ∧ e.IsStorageFault := by
  obtain ⟨table, key, hcontents, hfirst⟩ := exists_first_withText text
  obtain ⟨e, hdecode, he⟩ := exists_decode_rowOf htext
  exact ⟨e, Statement.run_select_of_unreadable rfl (planOf_textsThatAreSeven text) rfl
    (.scan _) (fun _ => ⟨_, _, rfl⟩) hcontents hfirst hdecode j, he⟩

end Session

end RelQuery
