/-
  Readers keep their place: they give back what was written and stop behind it, they go forward
  only and never past the end, and every failure leaves them at a place of its own.

  What has a fixed width is taken in one piece, so it is read whole or not at all. A string is taken
  in two pieces: where its body is cut off its length has been passed already, and where its body is
  no UTF-8 so has the body. Reads go on after failures, so the places that count are those to which
  any reads lead, whatever they answered (`Reader.after`).

  What one read does is said once (`Item.Kind.moves`); from it follows what any reads in a row keep
  (`Reader.In.after`). Main statement: `Reader.keeps_place`.
-/
import RelQuery.Proofs.Record.Canonical

namespace RelQuery

/-! ## What is written and asked for -/

/-- The bytes of a string can be counted in its length field. -/
def Field.Fits : Field → Prop
  | .string s => (Utf8.encode s).length < 2 ^ 32
  | _ => True

/-- What is written in one go: a field, or a value as the field of its type. -/
inductive Item where
  | field (f : Field)
  | datum (d : Datum)
  deriving DecidableEq

namespace Item

/-- What a reader is asked for. -/
inductive Kind where
  | field (kind : Field.Kind)
  | datum (type : Ty)
  deriving DecidableEq

def kind : Item → Kind
  | field f => .field f.kind
  | datum d => .datum d.type

def encode : Item → Bytes
  | field f => f.encode
  | datum d => d.encode

/-- Items are written one behind the other. -/
def encodeAll (items : List Item) : Bytes := items.flatMap encode

def Fits : Item → Prop
  | field f => f.Fits
  | datum d => d.Fits

namespace Kind

def read : Kind → Read Item
  | field k => return .field (← Reader.field k)
  | datum ty => return .datum (← Reader.datum ty)

/-- The number of bytes of every item of the kind; strings have no fixed one. -/
def width? : Kind → Option Nat
  | field .u8 => some 1
  | field .i32 | field .u32 => some 4
  | field .int | datum .integer => some 8
  | field .string | datum .string => none

end Kind

end Item

namespace Reader

/-- What reads in a row answer. Each starts where the one before it stopped, failed or not. -/
def answers : List Item.Kind → Reader → List (Except Error Item)
  | [], _ => []
  | kind :: kinds, r => (kind.read.run r).1 :: answers kinds (kind.read.run r).2

/-- Where reads in a row leave the reader. -/
def after : List Item.Kind → Reader → Reader
  | [], r => r
  | kind :: kinds, r => after kinds (kind.read.run r).2

end Reader

/-! ## What was written -/

namespace Reader

open Read.Takes (of_pure)

theorem field_takes {f : Field} (h : f.Fits) : (field f.kind).Takes f.encode f := by
  cases f with
  | u8 v => exact (u8_takes v).map (of_pure rfl)
  | i32 v => exact (i32_takes v).map (of_pure rfl)
  | u32 v => exact (u32_takes v).map (of_pure rfl)
  | int v => exact (int_takes v).map (of_pure rfl)
  | string s => exact (string_takes h).map (of_pure rfl)

theorem datum_takes {d : Datum} (h : d.Fits) : (datum d.type).Takes d.encode d :=
  (Tuple.typed_takes rfl h).map (of_pure rfl)

theorem item_takes {i : Item} (h : i.Fits) : i.kind.read.Takes i.encode i := by
  cases i with
  | field f => exact (field_takes h).map (of_pure rfl)
  | datum d => exact (datum_takes h).map (of_pure rfl)

/-- Reads of the kinds that were written give the items and stop behind the last one. -/
theorem run_written {items : List Item} (h : ∀ i ∈ items, i.Fits) (offset : Nat) (extra : Bytes) :
    answers (items.map Item.kind) ⟨offset, Item.encodeAll items ++ extra⟩ = items.map .ok
      ∧ after (items.map Item.kind) ⟨offset, Item.encodeAll items ++ extra⟩
          = ⟨offset + (Item.encodeAll items).length, extra⟩ := by
  -- the next item is read where the one before it ended, so the offset is any
  induction items generalizing offset with
  | nil => exact ⟨rfl, rfl⟩
  | cons i items ih =>
    obtain ⟨hi, hitems⟩ := List.forall_mem_cons.1 h
    have hencode : Item.encodeAll (i :: items) = i.encode ++ Item.encodeAll items :=
      List.flatMap_cons
    have hread := item_takes hi offset (Item.encodeAll items ++ extra)
    obtain ⟨hanswers, hafter⟩ := ih hitems (offset + i.encode.length)
    rw [hencode, List.append_assoc, List.length_append, ← Nat.add_assoc]
    simp only [List.map_cons, answers, after, hread]
    exact ⟨congrArg _ hanswers, hafter⟩

theorem finish_eq_ok_iff {r : Reader} : (finish.run r).1 = .ok () ↔ r.rest = [] := by
  obtain ⟨offset, rest⟩ := r
  cases rest with
  | nil => exact iff_of_true rfl rfl
  | cons b rest => exact iff_of_false nofun nofun

end Reader

/-! ## Numbers and strings -/

namespace Reader

open Read.Takes (run_bind)

variable {r : Reader}

/-- The reader `n` bytes further on. -/
def skip (r : Reader) (n : Nat) : Reader := ⟨r.offset + n, r.rest.drop n⟩

theorem skip_skip (r : Reader) (m n : Nat) : (r.skip m).skip n = r.skip (m + n) := by
  simp [skip, Nat.add_assoc, List.drop_drop]

theorem length_rest_skip (r : Reader) (n : Nat) : (r.skip n).rest.length = r.rest.length - n :=
  List.length_drop

/-- The length that a string has in front if it starts here. -/
def announced (r : Reader) : Nat := Bytes.toNat (r.rest.take 4)

/-- The bytes behind that length, as many as it says. -/
def body (r : Reader) : Bytes := (r.rest.drop 4).take r.announced

theorem run_map {α β : Type} (g : α → β) (x : Read α) (r : Reader) :
    (g <$> x).run r = ((x.run r).1.map g, (x.run r).2) := by
  rw [map_eq_pure_bind, run_bind]
  cases (x.run r).1 <;> rfl

theorem run_nat {width : Nat} (h : width ≤ r.rest.length) :
    (nat width).run r = (.ok (Bytes.toNat (r.rest.take width)), r.skip width) := by
  unfold nat
  rw [run_bind, run_take h]
  rfl

theorem run_nat_of_lt {width : Nat} (h : r.rest.length < width) :
    (nat width).run r = (.error (.truncatedRecord width r.offset r.rest.length), r) := by
  unfold nat
  rw [run_bind, run_take_of_lt h]
  rfl

theorem run_string_of_lt (h : r.rest.length < 4) :
    string.run r = (.error (.truncatedRecord 4 r.offset r.rest.length), r) := by
  unfold string
  rw [run_bind, run_nat_of_lt h]
  rfl

/-- Behind its length a string has its body, which is refused if no text has these bytes. -/
theorem exists_spelling (h : 4 ≤ r.rest.length) :
    ∃ spelled : Bytes → Read String,
      string.run r = (take r.announced >>= spelled).run (r.skip 4)
        ∧ ∀ bytes s, ∃ answer, (spelled bytes).run s = (answer, s)
          ∧ ((∃ e, answer = .error e) ↔ ∀ text, Utf8.encode text ≠ bytes) := by
  unfold string
  rw [run_bind, run_nat h]
  refine ⟨_, rfl, fun bytes s => ?_⟩
  cases hdecode : Utf8.decode bytes with
  | ok text =>
    exact ⟨_, rfl, iff_of_false nofun fun hno => hno text (Utf8.encode_of_decode hdecode)⟩
  | error fault =>
    have hno : ∀ text, Utf8.encode text ≠ bytes := by
      intro text htext
      rw [← htext, Utf8.decode_encode] at hdecode
      cases hdecode
    cases fault with
    | invalid length index => exact ⟨_, rfl, iff_of_true ⟨_, rfl⟩ hno⟩
    | incomplete index => exact ⟨_, rfl, iff_of_true ⟨_, rfl⟩ hno⟩

theorem run_string_of_short (h : 4 ≤ r.rest.length) (hshort : r.rest.length < 4 + r.announced) :
    string.run r = (.error (.truncatedRecord r.announced (r.offset + 4) (r.rest.length - 4)),
      r.skip 4) := by
  obtain ⟨spelled, hrun, -⟩ := exists_spelling h
  have hbody : (r.skip 4).rest.length < r.announced := by
    rw [length_rest_skip]
    omega
  rw [hrun, run_bind, run_take_of_lt hbody, length_rest_skip]
  rfl

theorem run_string (h : 4 + r.announced ≤ r.rest.length) :
    ∃ answer, string.run r = (answer, r.skip (4 + r.announced))
      ∧ ((∃ e, answer = .error e) ↔ ∀ text, Utf8.encode text ≠ r.body) := by
  obtain ⟨spelled, hrun, hspelled⟩ := exists_spelling (Nat.le_of_add_right_le h)
  have hbody : r.announced ≤ (r.skip 4).rest.length := by
    rw [length_rest_skip]
    omega
  rw [hrun, run_bind, run_take hbody, ← skip_skip]
  exact hspelled r.body _

end Reader

/-! ## One read -/

namespace Reader

open Read.Strict (of_pure)

theorem field_strict (k : Field.Kind) :
    (field k).Strict fun f bytes => f.kind = k ∧ bytes = f.encode := by
  cases k with
  | u8 => exact u8_strict.map fun _ => of_pure ⟨rfl, fun _ h => ⟨rfl, h⟩⟩
  | i32 => exact i32_strict.map fun _ => of_pure ⟨rfl, fun _ h => ⟨rfl, h⟩⟩
  | u32 => exact u32_strict.map fun _ => of_pure ⟨rfl, fun _ h => ⟨rfl, h⟩⟩
  | int => exact int_strict.map fun _ => of_pure ⟨rfl, fun _ h => ⟨rfl, h⟩⟩
  | string => exact string_strict.map fun _ => of_pure ⟨rfl, fun _ h => ⟨rfl, h.2⟩⟩

theorem datum_strict (ty : Ty) :
    (datum ty).Strict fun d bytes => d.type = ty ∧ bytes = d.encode :=
  (Tuple.typed_strict ty).map fun d => of_pure ⟨rfl, fun _ h => ⟨d.property, h.2⟩⟩

theorem item_strict (kind : Item.Kind) :
    kind.read.Strict fun i bytes => i.kind = kind ∧ bytes = i.encode := by
  cases kind with
  | field k =>
    exact (field_strict k).map fun _ => of_pure ⟨rfl, fun _ h => ⟨congrArg _ h.1, h.2⟩⟩
  | datum ty =>
    exact (datum_strict ty).map fun _ => of_pure ⟨rfl, fun _ h => ⟨congrArg _ h.1, h.2⟩⟩

end Reader

namespace Item.Kind

variable {kind : Kind}

/-- What has a fixed width is read as a number of that width. -/
theorem read_of_width {width : Nat} (h : kind.width? = some width) :
    ∃ g : Nat → Item, kind.read = g <$> Reader.nat width := by
  -- the kinds differ in what is made of the number only
  cases kind with
  | field k =>
    cases k with
    | u8 =>
      cases h
      exact ⟨fun n => .field (.u8 (.ofNat n)), by simp [read, Reader.field, Reader.u8]⟩
    | i32 =>
      cases h
      exact ⟨fun n => .field (.i32 (UInt32.ofNat n).toInt32),
        by simp [read, Reader.field, Reader.i32, Reader.u32]⟩
    | u32 =>
      cases h
      exact ⟨fun n => .field (.u32 (.ofNat n)), by simp [read, Reader.field, Reader.u32]⟩
    | int =>
      cases h
      exact ⟨fun n => .field (.int (UInt64.ofNat n).toInt64),
        by simp [read, Reader.field, Reader.int]⟩
    | string => cases h
  | datum ty =>
    cases ty with
    | integer =>
      cases h
      exact ⟨fun n => .datum (.int (UInt64.ofNat n).toInt64),
        by simp [read, Reader.datum, Reader.typed, Reader.int]⟩
    | string => cases h

theorem read_of_no_width (h : kind.width? = none) :
    ∃ g : String → Item, kind.read = g <$> Reader.string := by
  cases kind with
  | field k =>
    cases k with
    | u8 | i32 | u32 | int => cases h
    | string => exact ⟨fun s => .field (.string s), by simp [read, Reader.field]⟩
  | datum ty =>
    cases ty with
    | integer => cases h
    | string => exact ⟨fun s => .datum (.string s), by simp [read, Reader.datum, Reader.typed]⟩

/-- How far a read of the kind gets from `r` on, and where it leaves the reader. -/
structure Moves (kind : Kind) (r : Reader) : Prop where
  /-- What has a fixed width is read if it is there. -/
  fixed : ∀ width, kind.width? = some width → width ≤ r.rest.length →
    ∃ i, kind.read.run r = (.ok i, r.skip width)
  /-- If it is cut off it is not begun. -/
  cutOff : ∀ width, kind.width? = some width → r.rest.length < width →
    kind.read.run r = (.error (.truncatedRecord width r.offset r.rest.length), r)
  /-- A string whose length is cut off is not begun. -/
  noLength : kind.width? = none → r.rest.length < 4 →
    kind.read.run r = (.error (.truncatedRecord 4 r.offset r.rest.length), r)
  /-- A string whose body is cut off is left behind its length. -/
  noBody : kind.width? = none → 4 ≤ r.rest.length → r.rest.length < 4 + r.announced →
    kind.read.run r
      = (.error (.truncatedRecord r.announced (r.offset + 4) (r.rest.length - 4)), r.skip 4)
  /-- A string whose body is there is passed, also if no text has this body. -/
  body : kind.width? = none → 4 + r.announced ≤ r.rest.length →
    ∃ answer, kind.read.run r = (answer, r.skip (4 + r.announced))
      ∧ ((∃ e, answer = .error e) ↔ ∀ text, Utf8.encode text ≠ r.body)

theorem moves (kind : Kind) (r : Reader) : kind.Moves r where
  fixed width h hr := by
    obtain ⟨g, hread⟩ := read_of_width h
    rw [hread, Reader.run_map, Reader.run_nat hr]
    exact ⟨_, rfl⟩
  cutOff width h hr := by
    obtain ⟨g, hread⟩ := read_of_width h
    rw [hread, Reader.run_map, Reader.run_nat_of_lt hr]
    rfl
  noLength h hr := by
    obtain ⟨g, hread⟩ := read_of_no_width h
    rw [hread, Reader.run_map, Reader.run_string_of_lt hr]
    rfl
  noBody h hr hshort := by
    obtain ⟨g, hread⟩ := read_of_no_width h
    rw [hread, Reader.run_map, Reader.run_string_of_short hr hshort]
    rfl
  body h hr := by
    obtain ⟨g, hread⟩ := read_of_no_width h
    obtain ⟨answer, hrun, hfails⟩ := Reader.run_string hr
    rw [hread, Reader.run_map, hrun]
    refine ⟨_, rfl, Iff.trans ?_ hfails⟩
    cases answer with
    | error e => exact iff_of_true ⟨e, rfl⟩ ⟨e, rfl⟩
    | ok text => exact iff_of_false nofun nofun

/-- A read goes forward, and not past what is left. -/
theorem exists_skip (kind : Kind) (r : Reader) :
    ∃ n ≤ r.rest.length, (kind.read.run r).2 = r.skip n := by
  have hmoves := kind.moves r
  -- the cases are those of `Moves`, by how many of the bytes are there
  cases h : kind.width? with
  | some width =>
    rcases Nat.lt_or_ge r.rest.length width with hr | hr
    · exact ⟨0, Nat.zero_le _, congrArg Prod.snd (hmoves.cutOff width h hr)⟩
    · obtain ⟨i, hrun⟩ := hmoves.fixed width h hr
      exact ⟨width, hr, congrArg Prod.snd hrun⟩
  | none =>
    rcases Nat.lt_or_ge r.rest.length 4 with hr | hr
    · exact ⟨0, Nat.zero_le _, congrArg Prod.snd (hmoves.noLength h hr)⟩
    · rcases Nat.lt_or_ge r.rest.length (4 + r.announced) with hbody | hbody
      · exact ⟨4, hr, congrArg Prod.snd (hmoves.noBody h hr hbody)⟩
      · obtain ⟨answer, hrun, -⟩ := hmoves.body h hbody
        exact ⟨_, hbody, congrArg Prod.snd hrun⟩

end Item.Kind

/-! ## Reads in a row -/

namespace Reader

/-- The reader stands in these bytes or at their end, and what comes next is left to read. -/
structure In (r : Reader) (bytes : Bytes) : Prop where
  le : r.offset ≤ bytes.length
  rest : r.rest = bytes.drop r.offset

variable {r : Reader} {bytes : Bytes}

theorem in_ofBytes (bytes : Bytes) : (ofBytes bytes).In bytes := ⟨Nat.zero_le _, rfl⟩

theorem In.skip (h : r.In bytes) {n : Nat} (hn : n ≤ r.rest.length) : (r.skip n).In bytes := by
  have hle := h.le
  rw [h.rest, List.length_drop] at hn
  have hrest : r.rest.drop n = bytes.drop (r.offset + n) := by rw [h.rest, List.drop_drop]
  exact ⟨show r.offset + n ≤ bytes.length by omega, hrest⟩

theorem In.read (h : r.In bytes) (kind : Item.Kind) : (kind.read.run r).2.In bytes := by
  obtain ⟨n, hn, hskip⟩ := kind.exists_skip r
  rw [hskip]
  exact h.skip hn

/-- No reads lead out of the bytes, whatever they answer. -/
theorem In.after (h : r.In bytes) (kinds : List Item.Kind) : (r.after kinds).In bytes := by
  induction kinds generalizing r with
  | nil => exact h
  | cons kind kinds ih => exact ih (h.read kind)

theorem offset_le_read (r : Reader) (kind : Item.Kind) :
    r.offset ≤ (kind.read.run r).2.offset := by
  obtain ⟨n, -, hskip⟩ := kind.exists_skip r
  rw [hskip]
  exact Nat.le_add_right r.offset n

/-- Items that fit, with anything behind them, are given back by reads of their kinds, which stop
exactly behind them. In any bytes and after any reads the reader stands `In` these bytes, each kind
of item `Moves` it, and what is given is written there. -/
theorem keeps_place :
    (∀ (items : List Item) (extra : Bytes), (∀ i ∈ items, i.Fits) → ∀ r : Reader,
      r = ofBytes (Item.encodeAll items ++ extra) →
      r.answers (items.map Item.kind) = items.map .ok
        ∧ r.after (items.map Item.kind) = ⟨(Item.encodeAll items).length, extra⟩
        ∧ ((finish.run (r.after (items.map Item.kind))).1 = .ok () ↔ extra = []))
    ∧ ∀ (bytes : Bytes) (kinds : List Item.Kind) (r : Reader), r = (ofBytes bytes).after kinds →
      r.In bytes ∧ ∀ kind : Item.Kind, kind.Moves r
        ∧ ∀ answer s, kind.read.run r = (answer, s) →
          r.offset ≤ s.offset ∧ s.In bytes
            ∧ ∀ i, answer = .ok i → i.kind = kind ∧ r.rest = i.encode ++ s.rest := by
  refine ⟨?_, ?_⟩
  · rintro items extra hitems r rfl
    obtain ⟨hanswers, hafter⟩ := run_written hitems 0 extra
    rw [Nat.zero_add] at hafter
    refine ⟨hanswers, hafter, ?_⟩
    rw [finish_eq_ok_iff, ofBytes, hafter]
  · rintro bytes kinds r rfl
    have hin := (in_ofBytes bytes).after kinds
    refine ⟨hin, fun kind => ⟨kind.moves _, ?_⟩⟩
    rintro answer s hrun
    have hforward := offset_le_read ((ofBytes bytes).after kinds) kind
    have hinside := hin.read kind
    rw [hrun] at hforward hinside
    refine ⟨hforward, hinside, ?_⟩
    rintro i rfl
    obtain ⟨front, hrest, hkind, rfl⟩ := (item_strict kind).gives hrun
    exact ⟨hkind, hrest⟩

/-- A byte and a text are read back from six bytes, and a seventh is too many. A text that is cut
off fails behind its length, from where a byte can still be read; one that is no UTF-8 fails behind
its body. -/
theorem keeps_place_brokenTexts :
    answers [.field .u8, .datum .string] (ofBytes [7, 0, 0, 0, 1, 97, 0])
        = [.ok (.field (.u8 7)), .ok (.datum (.string "a"))]
      ∧ (finish.run ⟨6, [0]⟩).1 ≠ .ok ()
      ∧ (Item.Kind.datum .string).read.run (ofBytes [0, 0, 0, 9, 97])
          = (.error (.truncatedRecord 9 4 1), ⟨4, [97]⟩)
      ∧ (∃ i, (Item.Kind.field .u8).read.run (after [.datum .string] (ofBytes [0, 0, 0, 9, 97]))
          = (.ok i, ⟨5, []⟩))
      ∧ ∃ e, (Item.Kind.field .string).read.run (ofBytes [0, 0, 0, 1, 255, 7])
          = (.error e, ⟨5, [7]⟩) := by
  obtain ⟨hwritten, hread⟩ := keeps_place
  have hfits : ∀ i ∈ [Item.field (.u8 7), .datum (.string "a")], i.Fits := by
    have htext : (Utf8.encode "a").length < 2 ^ 32 := by decide
    simpa [Item.Fits, Field.Fits, Datum.Fits] using htext
  obtain ⟨hanswers, hafter, hfinish⟩ := hwritten _ [0] hfits _ rfl
  rw [hafter] at hfinish
  have hextra : (finish.run ⟨6, [0]⟩).1 ≠ .ok () := fun h => List.cons_ne_nil 0 [] (hfinish.1 h)
  have hcut := ((hread [0, 0, 0, 9, 97] [] _ rfl).2 (.datum .string)).1
  have hbehind := ((hread [0, 0, 0, 9, 97] [.datum .string] _ rfl).2 (.field .u8)).1
  have hrefused := ((hread [0, 0, 0, 1, 255, 7] [] _ rfl).2 (.field .string)).1
  obtain ⟨answer, hrun, hfails⟩ := hrefused.body rfl (by decide)
  have hno : ∀ text, Utf8.encode text ≠ [255] := by
    intro text htext
    have hdecode := Utf8.decode_encode text
    rw [htext] at hdecode
    cases hdecode
  obtain ⟨e, rfl⟩ := hfails.2 hno
  exact ⟨hanswers, hextra, hcut.noBody rfl (by decide) (by decide),
    hbehind.fixed 1 rfl (by decide), e, hrun⟩

end Reader

end RelQuery
