import LabLease.Store
import LabLease.Store.Cell

/-!
# Records in a database table

The store of a broker whose leases outlive it: one row per lease in a table of a database, in the
order in which the rows were first written. The table belongs to the database, and others may write
rows to it, so what a row holds is decided by the table's rules alone: its columns' types
(`Row.settled`), which of them may be null, and that no two rows share an identifier
(`LeaseTable.insert`).

Reading is all or nothing. `Row.decode` reads one row and names the first cell that cannot be read,
the status first and the others from left to right, and only then a status that has no meaning;
`LeaseTable.leases` stops at the first row that fails.

Saving a lease whose identifier has a row changes three cells of that row and no others: name,
status and deadline (`LeaseTable.save`). The columns hold signed numbers, so a lease with a larger
number cannot be saved; `LeaseTable.decode_ofLease` says that any other is read as it was written.
-/

namespace LabLease

/-- A row of the table. -/
structure Row where
  id : Cell
  name : Cell
  selector : Cell
  exporter : Cell
  status : Cell
  createdAt : Cell
  durationMs : Cell
  expiresAt : Cell
deriving DecidableEq, Repr, Inhabited

namespace Row

/-- What the columns make of a row that is put into the table. -/
def settled (r : Row) : Row where
  id := r.id.asText
  name := r.name.asText
  selector := r.selector.asText
  exporter := r.exporter.asText
  status := r.status.asText
  createdAt := r.createdAt.asInteger
  durationMs := r.durationMs.asInteger
  expiresAt := r.expiresAt.asInteger

/-- The cells that must not be null, with the names of their columns. -/
def required (r : Row) : List (Cell × String) :=
  [(r.id, "id"), (r.selector, "selector"), (r.exporter, "resource_id"), (r.status, "state"),
    (r.createdAt, "created_at"), (r.durationMs, "duration_ms"), (r.expiresAt, "expires_at")]

/-- The row of a lease. -/
def ofLease (l : Lease) : Row where
  id := .text l.id
  name := match l.name with
    | none => .null
    | some name => .text name
  selector := .text l.selector
  exporter := .text l.exporter
  status := .text l.status.text
  createdAt := .integer l.createdAt.toInt64
  durationMs := .integer l.durationMs.toInt64
  expiresAt := .integer l.expiresAt.toInt64

/-- The lease of a row, or the first thing in it that cannot be read. Reference:
`SqliteLeaseStore.row_to_lease`, and the check of the state in `load_all`. -/
def decode (r : Row) : Except StoreFault Lease := do
  let status ← r.status.readText 4 "state"
  let id ← r.id.readText 0 "id"
  let name ← r.name.readTextOrNull 1 "name"
  let selector ← r.selector.readText 2 "selector"
  let exporter ← r.exporter.readText 3 "resource_id"
  let createdAt ← r.createdAt.readNumber 5 "created_at"
  let durationMs ← r.durationMs.readNumber 6 "duration_ms"
  let expiresAt ← r.expiresAt.readNumber 7 "expires_at"
  match Status.ofText? status with
  | none => .error (.corrupt id (.unknownStatus status))
  | some status => .ok ⟨id, name, selector, exporter, status, createdAt, durationMs, expiresAt⟩

/-- The row with the name, the status and the deadline of another. -/
def updatedBy (r new : Row) : Row :=
  { r with name := new.name, status := new.status, expiresAt := new.expiresAt }

end Row

/-- A table of leases: its rows, in the order of their sequence numbers. A row that is put into the
table is given a number above all others, and keeps it. Reference: the table that
`SqliteLeaseStore.open` makes. -/
structure LeaseTable where
  rows : List Row := []
deriving DecidableEq, Repr, Inhabited

namespace LeaseTable

/-- The table without rows. -/
def empty : LeaseTable := ⟨[]⟩

/-- Puts a row into the table, unless a rule of the table forbids it. -/
def insert (t : LeaseTable) (r : Row) : Except BackendFault LeaseTable :=
  let r := r.settled
  match r.required.find? fun (c, _) => c == .null with
  | some (_, column) => .error (.constraint "NOT NULL" column)
  | none =>
    if t.rows.any (·.id == r.id) then .error (.constraint "UNIQUE" "id")
    else .ok ⟨t.rows ++ [r]⟩

/-- Puts rows into the table one after the other, up to the first that is forbidden. -/
def insertAll (t : LeaseTable) : List Row → Except BackendFault Unit × LeaseTable
  | [] => (.ok (), t)
  | r :: rs =>
    match t.insert r with
    | .error fault => (.error fault, t)
    | .ok t => t.insertAll rs

/-- The leases of all rows, or what is wrong with the first row that cannot be read. Reference:
`SqliteLeaseStore.load_all`. -/
def leases (t : LeaseTable) : Except StoreFault (List Lease) := t.rows.mapM Row.decode

/-- The largest number that the table can hold. -/
def largest : UInt64 := 0x7fffffffffffffff

/-- Whether the numbers of a lease fit in the table's columns. -/
def fits (l : Lease) : Bool :=
  decide (l.createdAt ≤ largest) && decide (l.durationMs ≤ largest) &&
    decide (l.expiresAt ≤ largest)

/-- A lease fits if its numbers are in the lower half of the 64-bit range. -/
theorem fits_iff {l : Lease} : fits l = true ↔
    l.createdAt.toNat ≤ 0x7fffffffffffffff ∧ l.durationMs.toNat ≤ 0x7fffffffffffffff ∧
      l.expiresAt.toNat ≤ 0x7fffffffffffffff := by
  have h (n : UInt64) : n ≤ largest ↔ n.toNat ≤ 0x7fffffffffffffff := UInt64.le_iff_toNat_le
  simp [fits, h, and_assoc]

/-- The row of a lease that fits in the table reads as that lease. -/
theorem decode_ofLease {l : Lease} (h : fits l = true) : (Row.ofLease l).decode = .ok l := by
  obtain ⟨h1, h2, h3⟩ := fits_iff.1 h
  obtain ⟨id, name, selector, exporter, status, createdAt, durationMs, expiresAt⟩ := l
  cases name <;>
    simp [Row.decode, Row.ofLease, Cell.readText, Cell.readTextOrNull, Cell.readNumber_toInt64 h1,
      Cell.readNumber_toInt64 h2, Cell.readNumber_toInt64 h3, bind, Except.bind]

/-- Writes a lease: into the row with its identifier, of which only the name, the status and the
deadline change, or as a new row. Reference: `SqliteLeaseStore.save`. -/
def save (t : LeaseTable) (l : Lease) : Except StoreFault LeaseTable :=
  if !fits l then .error (.backend .numberTooLarge)
  else
    let new := Row.ofLease l
    if t.rows.any (·.id == new.id) then
      .ok ⟨t.rows.map fun r => if r.id = new.id then r.updatedBy new else r⟩
    else .ok ⟨t.rows ++ [new]⟩

end LeaseTable

/-- A database with a table of leases, under the path it was opened by. Reference:
`SqliteLeaseStore`, §14. -/
structure TableStore where
  /-- The path, as it was given. -/
  path : String
  /-- The table. -/
  table : LeaseTable := LeaseTable.empty
  /-- Nothing can be written to it. -/
  readOnly : Bool := false
deriving DecidableEq, Repr, Inhabited

namespace TableStore

instance : LeaseStore TableStore where
  load s := s.table.leases
  save s l :=
    match s.table.save l with
    | .error fault => (.error fault, s)
    | .ok table =>
      if s.readOnly then (.error (.backend .readOnly), s) else (.ok (), { s with table := table })
  describe s := "sqlite:" ++ s.path

end TableStore

end LabLease
