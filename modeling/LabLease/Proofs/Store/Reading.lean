import LabLease.Proofs.Ledger.Loading
import LabLease.Proofs.Store.Table

/-!
# Reading is all or nothing

A row can be read if each of its cells fits in its column and its status has one of the four names
(`Row.Readable`), and then it is read as the lease that it holds (`Row.Holds`). Any other row has
one fault, whatever else is wrong with it (`Row.Fault`): that of the first cell that does not fit,
in the order in which cells are read (`Row.cells`), or, if all of them fit, that of the status.

A row is read cell by cell, and `Fails` says of the cells that are left how reading comes to a
fault. One more cell in front of them is `Column.Reads.bind_fails_iff`, whatever is read from it,
and a row is eight such steps (`Row.decode_eq_error_iff`). A table is read row by row, and has the
fault of its first row that has one (`LeaseTable.leases_eq_error_iff`). What that comes to for a
table, and for a ledger that is loaded from it, is `TableStore.ReadingSpec`.
-/

namespace LabLease

/-! ## Cells and columns -/

/-- What is read from a column. -/
inductive ColumnUse
  /-- A text. -/
  | text
  /-- A text that may be missing. -/
  | textOrNull
  /-- A number that is not negative. -/
  | number
deriving DecidableEq, Repr

/-- The kinds of values from which that can be read. -/
def ColumnUse.kinds : ColumnUse → List CellKind
  | .text => [.text]
  | .textOrNull => [.null, .text]
  | .number => [.integer]

/-- A column of a table, as it is read. -/
structure Column where
  /-- Its position among the columns that are read. -/
  position : Nat
  /-- Its name. -/
  name : String
  /-- What is read from it. -/
  use : ColumnUse
deriving DecidableEq, Repr

/-- A cell holds what is read from its column. A text is one whose bytes are UTF-8, and the integers
that are not negative are those from 0 to 2⁶³ - 1. -/
def Column.Fits (col : Column) (c : Cell) : Prop :=
  match col.use with
  | .text => ∃ s, c = .text s
  | .textOrNull => c = .null ∨ ∃ s, c = .text s
  | .number => ∃ i : Int64, c = .integer i ∧ 0 ≤ i.toInt

/-- What is wrong with a cell of a column. -/
@[mk_iff]
inductive Column.Fault (col : Column) (c : Cell) : BackendFault → Prop
  /-- Its value is of a kind from which nothing can be read there. -/
  | kind (h : c.kind ∉ col.use.kinds) : Fault col c (.columnKind c.kind col.position col.name)
  /-- It is a text, as it should be, but its bytes are not UTF-8. -/
  | text {t : MalformedText} (hu : col.use ≠ .number) (hc : c = .malformed t) :
    Fault col c (.columnText t.flaw col.position)
  /-- It should be a number, and is negative. -/
  | range {i : Int64} (hu : col.use = .number) (hc : c = .integer i) (hi : i.toInt < 0) :
    Fault col c (.columnRange i.toInt col.position)

/-- The first of some cells that does not fit in its column has a fault. -/
def FirstMisfit : List (Column × Cell) → BackendFault → Prop :=
  FirstFault (fun f => f.1.Fits f.2) (fun f => f.1.Fault f.2)

/-- What comes of reading a cell of a column: a value if the cell fits, and else its fault. -/
structure Column.Reads {α : Type} (col : Column) (c : Cell) (x : Except StoreFault α) : Prop where
  ok_iff : (∃ a, x = .ok a) ↔ col.Fits c
  error_iff {e : StoreFault} : x = .error e ↔ ∃ fault, e = .backend fault ∧ col.Fault c fault

namespace Cell

variable {c : Cell} {position : Nat} {column : String}

theorem reads_text : (Column.mk position column .text).Reads c (c.readText position column) := by
  cases c <;> constructor <;>
    simp [readText, Column.Fits, Column.fault_iff, ColumnUse.kinds, kind, eq_comm]

theorem reads_textOrNull :
    (Column.mk position column .textOrNull).Reads c (c.readTextOrNull position column) := by
  cases c <;> constructor <;>
    simp [readTextOrNull, Column.Fits, Column.fault_iff, ColumnUse.kinds, kind, eq_comm]

theorem reads_number :
    (Column.mk position column .number).Reads c (c.readNumber position column) := by
  cases c with
  | integer i =>
    rw [readNumber_integer]
    split
    · next hneg =>
      constructor
      · simpa [Column.Fits] using hneg
      · simp [Column.fault_iff, ColumnUse.kinds, kind, hneg, eq_comm]
    · next hpos =>
      constructor
      · simpa [Column.Fits] using hpos
      · simp [Column.fault_iff, ColumnUse.kinds, kind, hpos]
  | null | real | text | malformed | blob =>
    constructor <;>
      simp [readNumber, Column.Fits, Column.fault_iff, ColumnUse.kinds, kind, eq_comm]

end Cell

/-! ## Rows -/

/-- The names of the statuses. -/
def Status.names : List String := ["Pending", "Active", "Released", "Expired"]

theorem Status.mem_names_iff {s : String} : s ∈ names ↔ ∃ st : Status, s = st.text := by
  constructor
  · intro h
    simp only [names, List.mem_cons, List.not_mem_nil, or_false] at h
    obtain rfl | rfl | rfl | rfl := h
    exacts [⟨.pending, rfl⟩, ⟨.active, rfl⟩, ⟨.released, rfl⟩, ⟨.expired, rfl⟩]
  · rintro ⟨st, rfl⟩
    cases st <;> decide

theorem Status.ofText?_eq_none_iff {s : String} : ofText? s = none ↔ s ∉ names := by
  simp [mem_names_iff, Option.eq_none_iff_forall_ne_some, ofText?_eq_some_iff]

namespace Row

/-- The cells of a row and their columns, in the order in which they are read: the status first and
the others from left to right. -/
def cells (r : Row) : List (Column × Cell) :=
  [(⟨4, "state", .text⟩, r.status), (⟨0, "id", .text⟩, r.id), (⟨1, "name", .textOrNull⟩, r.name),
    (⟨2, "selector", .text⟩, r.selector), (⟨3, "resource_id", .text⟩, r.exporter),
    (⟨5, "created_at", .number⟩, r.createdAt), (⟨6, "duration_ms", .number⟩, r.durationMs),
    (⟨7, "expires_at", .number⟩, r.expiresAt)]

/-- A row can be read. -/
structure Readable (r : Row) : Prop where
  /-- Each cell holds what is read from its column. -/
  cells : ∀ f ∈ r.cells, f.1.Fits f.2
  /-- The status has one of the four names. -/
  status : ∃ name ∈ Status.names, r.status = .text name

/-- A row holds a lease: its cells have the values of the lease. -/
structure Holds (r : Row) (l : Lease) : Prop where
  id : r.id = .text l.id
  name : r.name = l.name.elim .null .text
  selector : r.selector = .text l.selector
  exporter : r.exporter = .text l.exporter
  status : r.status = .text l.status.text
  createdAt : ∃ i : Int64, r.createdAt = .integer i ∧ i.toInt = l.createdAt.toNat
  durationMs : ∃ i : Int64, r.durationMs = .integer i ∧ i.toInt = l.durationMs.toNat
  expiresAt : ∃ i : Int64, r.expiresAt = .integer i ∧ i.toInt = l.expiresAt.toNat

/-- What is wrong with a row. -/
inductive Fault (r : Row) : StoreFault → Prop
  /-- A cell does not fit in its column, and those that are read before it do. -/
  | cell {fault : BackendFault} (h : FirstMisfit r.cells fault) : Fault r (.backend fault)
  /-- All cells fit, but the status has another name. The row is told by its identifier. -/
  | status {id name : String} (h : ∀ f ∈ r.cells, f.1.Fits f.2) (hid : r.id = .text id)
    (hs : r.status = .text name) (hno : name ∉ Status.names) :
    Fault r (.corrupt id (.unknownStatus name))

variable {r : Row} {l : Lease} {e : StoreFault}

/-- A row is read as the lease that it holds, and as no other. -/
theorem decode_eq_ok_iff_holds : r.decode = .ok l ↔ r.Holds l := by
  simp only [decode_eq_ok_iff, Cell.readTextOrNull_eq_ok_iff, Cell.readNumber_eq_ok_iff]
  constructor
  · rintro ⟨hs, hid, hn, hse, he, hc, hd, hx⟩
    exact ⟨hid, hn, hse, he, hs, hc, hd, hx⟩
  · rintro ⟨hid, hn, hse, he, hs, hc, hd, hx⟩
    exact ⟨hs, hid, hn, hse, he, hc, hd, hx⟩

/-- A row can be read if something is read from each of its cells. -/
theorem readable_iff : r.Readable ↔ ∃ l, r.decode = .ok l := by
  constructor
  · rintro ⟨hcells, text, htext, hs⟩
    simp only [cells, List.forall_mem_cons] at hcells
    obtain ⟨-, ⟨id, hid⟩, hn, ⟨selector, hse⟩, ⟨exporter, he⟩, hc, hd, hx, -⟩ := hcells
    obtain ⟨st, rfl⟩ := Status.mem_names_iff.1 htext
    obtain ⟨name, hn⟩ := Cell.reads_textOrNull.ok_iff.2 hn
    obtain ⟨createdAt, hc⟩ := Cell.reads_number.ok_iff.2 hc
    obtain ⟨durationMs, hd⟩ := Cell.reads_number.ok_iff.2 hd
    obtain ⟨expiresAt, hx⟩ := Cell.reads_number.ok_iff.2 hx
    exact ⟨⟨id, name, selector, exporter, st, createdAt, durationMs, expiresAt⟩,
      decode_eq_ok_iff.2 ⟨hs, hid, hn, hse, he, hc, hd, hx⟩⟩
  · rintro ⟨l, h⟩
    obtain ⟨hs, hid, hn, hse, he, hc, hd, hx⟩ := decode_eq_ok_iff.1 h
    refine ⟨?_, _, Status.mem_names_iff.2 ⟨l.status, rfl⟩, hs⟩
    simp only [cells, List.forall_mem_cons]
    exact ⟨⟨_, hs⟩, ⟨_, hid⟩, Cell.reads_textOrNull.ok_iff.1 ⟨_, hn⟩, ⟨_, hse⟩, ⟨_, he⟩,
      Cell.reads_number.ok_iff.1 ⟨_, hc⟩, Cell.reads_number.ok_iff.1 ⟨_, hd⟩,
      Cell.reads_number.ok_iff.1 ⟨_, hx⟩, nofun⟩

end Row

/-! ## Reading a row cell by cell -/

/-- How reading comes to the fault `e` when the cells that are left are `cs`: at the first of them
that does not fit, or, if all of them do, at what comes behind them. -/
def Fails (Behind : StoreFault → Prop) (cs : List (Column × Cell)) (e : StoreFault) : Prop :=
  (∃ fault, e = .backend fault ∧ FirstMisfit cs fault) ∨ (∀ f ∈ cs, f.1.Fits f.2) ∧ Behind e

section Fails

variable {α β : Type} {col : Column} {c : Cell} {cs : List (Column × Cell)}
  {Behind : StoreFault → Prop} {e : StoreFault}

theorem fails_nil_iff : Fails Behind [] e ↔ Behind e := by
  simp [Fails, FirstMisfit, not_firstFault_nil]

theorem fails_cons_iff : Fails Behind ((col, c) :: cs) e ↔
    (∃ fault, e = .backend fault ∧ col.Fault c fault) ∨ col.Fits c ∧ Fails Behind cs e := by
  simp only [Fails, FirstMisfit, firstFault_cons_iff, List.forall_mem_cons]
  constructor
  · rintro (⟨fault, rfl, hf | ⟨hc, hf⟩⟩ | ⟨⟨hc, hcs⟩, hb⟩)
    · exact .inl ⟨fault, rfl, hf⟩
    · exact .inr ⟨hc, .inl ⟨fault, rfl, hf⟩⟩
    · exact .inr ⟨hc, .inr ⟨hcs, hb⟩⟩
  · rintro (⟨fault, rfl, hf⟩ | ⟨hc, ⟨fault, rfl, hf⟩ | ⟨hcs, hb⟩⟩)
    · exact .inl ⟨fault, rfl, .inl hf⟩
    · exact .inl ⟨fault, rfl, .inr ⟨hc, hf⟩⟩
    · exact .inr ⟨⟨hc, hcs⟩, hb⟩

/-- Reading one more cell before the others. -/
theorem Column.Reads.bind_fails_iff {x : Except StoreFault α} {k : α → Except StoreFault β}
    (h : col.Reads c x) (hk : ∀ a, x = .ok a → (k a = .error e ↔ Fails Behind cs e)) :
    x >>= k = .error e ↔ Fails Behind ((col, c) :: cs) e := by
  rw [fails_cons_iff, ← h.error_iff, ← h.ok_iff, bind_eq_error_iff]
  refine or_congr_right ⟨?_, ?_⟩
  · rintro ⟨a, ha, hka⟩
    exact ⟨⟨a, ha⟩, (hk a ha).1 hka⟩
  · rintro ⟨⟨a, ha⟩, hf⟩
    exact ⟨a, ha, (hk a ha).2 hf⟩

end Fails

namespace Row

variable {r : Row} {e : StoreFault}

/-- What is wrong with a row of which only the status is wrong. -/
def Nameless (r : Row) (e : StoreFault) : Prop :=
  ∃ id name, r.id = .text id ∧ r.status = .text name ∧ name ∉ Status.names ∧
    e = .corrupt id (.unknownStatus name)

theorem fault_iff_fails : r.Fault e ↔ Fails r.Nameless r.cells e := by
  constructor
  · rintro (h | ⟨h, hid, hs, hno⟩)
    · exact .inl ⟨_, rfl, h⟩
    · exact .inr ⟨h, _, _, hid, hs, hno, rfl⟩
  · rintro (⟨fault, rfl, h⟩ | ⟨h, id, name, hid, hs, hno, rfl⟩)
    · exact .cell h
    · exact .status h hid hs hno

/-- A row is refused with its fault, and with no other. -/
theorem decode_eq_error_iff : r.decode = .error e ↔ r.Fault e := by
  rw [fault_iff_fails]
  -- One step for each of `cells`, in that order; the texts of the first two are needed at the end.
  refine Cell.reads_text.bind_fails_iff fun name hs => ?_
  refine Cell.reads_text.bind_fails_iff fun id hid => ?_
  refine Cell.reads_textOrNull.bind_fails_iff fun _ _ => ?_
  refine Cell.reads_text.bind_fails_iff fun _ _ => ?_
  refine Cell.reads_text.bind_fails_iff fun _ _ => ?_
  refine Cell.reads_number.bind_fails_iff fun _ _ => ?_
  refine Cell.reads_number.bind_fails_iff fun _ _ => ?_
  refine Cell.reads_number.bind_fails_iff fun _ _ => ?_
  rw [Cell.readText_eq_ok_iff] at hs hid
  rw [fails_nil_iff]
  cases hst : Status.ofText? name with
  | none => simp [Nameless, hs, hid, ← Status.ofText?_eq_none_iff, hst, eq_comm]
  | some st => simp [Nameless, hs, hid, ← Status.ofText?_eq_none_iff, hst]

end Row

/-! ## Tables -/

namespace LeaseTable

variable {t : LeaseTable} {ls : List Lease} {e : StoreFault}

/-- A table is read as one lease for each row. -/
theorem leases_eq_ok_iff_holds : t.leases = .ok ls ↔ List.Forall₂ Row.Holds t.rows ls := by
  simp only [leases_eq_ok_iff, Row.decode_eq_ok_iff_holds]

/-- A table is refused for its first row that cannot be read. -/
theorem leases_eq_error_iff :
    t.leases = .error e ↔ FirstFault Row.Readable Row.Fault t.rows e := by
  simp only [leases, mapM_eq_error_iff, Row.decode_eq_error_iff, ← Row.readable_iff]

/-- A table is read if each of its rows can be. -/
theorem exists_leases_iff : (∃ ls, t.leases = .ok ls) ↔ ∀ r ∈ t.rows, r.Readable := by
  simp only [leases_eq_ok_iff, Row.readable_iff]
  obtain ⟨rows⟩ := t
  induction rows with
  | nil => simp
  | cons r rows ih =>
    rw [List.forall_mem_cons, ← ih]
    simp only [List.forall₂_cons_left_iff]
    constructor
    · rintro ⟨_, l, ls, hl, hls, rfl⟩
      exact ⟨⟨l, hl⟩, ls, hls⟩
    · rintro ⟨⟨l, hl⟩, ls, hls⟩
      exact ⟨_, l, ls, hl, hls, rfl⟩

end LeaseTable

namespace TableStore

open LeaseStore

/-- What should come of reading a table, and of loading a ledger from it. -/
structure ReadingSpec (s : TableStore) : Prop where
  /-- The table is read exactly if each of its rows can be. -/
  ok_iff : (∃ ls, load s = .ok ls) ↔ ∀ r ∈ s.table.rows, r.Readable
  /-- What is read is one lease for each row, in the order of the rows, and the row holds it. -/
  leases {ls : List Lease} : load s = .ok ls ↔ List.Forall₂ Row.Holds s.table.rows ls
  /-- Otherwise nothing is read, and the fault is that of the first row that cannot be. -/
  fault {e : StoreFault} :
    load s = .error e ↔ FirstFault Row.Readable Row.Fault s.table.rows e
  /-- A ledger has the leases of all rows, and the table is as it was. -/
  ledger {bounds : SpanRange} {L : Ledger TableStore} (h : Ledger.ofStore bounds s = .ok L) :
    List.Forall₂ Row.Holds s.table.rows L.leases ∧ L.store = s
  /-- From a table with a row that cannot be read there comes no ledger, but the fault. -/
  no_ledger {bounds : SpanRange} {e : StoreFault}
    (h : FirstFault Row.Readable Row.Fault s.table.rows e) :
    Ledger.ofStore bounds s = .error (.store e)

/-- Whatever the rows of a table hold, also what was written past the program, reading it is all or
nothing: it gives the lease of every row in order or, for the first row that cannot be read, the
first thing in it that cannot. Reference: `SqliteLeaseStore.load_all` and `LeaseLedger.with_store`,
§14. -/
theorem reading_meets (s : TableStore) : ReadingSpec s where
  ok_iff := LeaseTable.exists_leases_iff
  leases := LeaseTable.leases_eq_ok_iff_holds
  fault := LeaseTable.leases_eq_error_iff
  ledger h := by
    obtain ⟨-, hstore, hload⟩ := Ledger.kept_of_ofStore h
    rw [hstore] at hload
    exact ⟨LeaseTable.leases_eq_ok_iff_holds.1 hload, hstore⟩
  no_ledger h := by
    have hload : load s = .error _ := LeaseTable.leases_eq_error_iff.2 h
    rw [Ledger.ofStore, hload]

/-- A row with an unknown status is refused for its deadline, which is read before that, and for
that row before the next one, which holds nothing. -/
example : load (⟨"leases.db", ⟨[.ofLease ⟨"a", none, "", "e1", .active, 0, 60000, 60000⟩,
      ⟨.text "b", .null, .text "", .text "e2", .text "Lost", .integer 0, .integer 60000,
        .integer (-1)⟩,
      default]⟩, false⟩ : TableStore) = .error (.backend (.columnRange (-1) 7)) :=
  rfl

end TableStore

end LabLease
