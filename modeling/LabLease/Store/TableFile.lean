import LabLease.Json.Reader
import LabLease.Json.Real
import LabLease.Json.Record
import LabLease.Json.Writer
import LabLease.Store.FileContent

/-!
# Databases in files

How the command line keeps a database from one run to the next: as a JSON document that says whether
the database keeps a shared log, and has one array of cells per row, or null if there is no table of
leases. `FileContent.ofFile` tells what the bytes of a file hold.
-/

namespace LabLease

namespace Cell

/-- Bytes as a document. -/
def bytesJson (bytes : List UInt8) : Json := .array (bytes.map fun b => .ofNat b.toNat)

/-- A cell as a document. A real number stands as its two parts, so that nothing of it is lost, and
bytes stand in an array of their own, with nothing behind it if they are a text. -/
def toJson : Cell → Json
  | .null => .null
  | .integer i => .number (toString i.toInt)
  | .real x => .array [.number (toString x.significand), .number (toString x.exponent)]
  | .text s => .ofText s
  | .malformed t => .array [bytesJson t.bytes, .null]
  | .blob bytes => .array [bytesJson bytes]

/-- The number with a literal: an integer if it is written as one and fits, else a real. -/
def ofLiteral? (literal : String) : Option Cell :=
  match Json.integer? literal with
  | none => (Json.real? literal).map .real
  | some i =>
    if Int64.minValue.toInt ≤ i ∧ i ≤ Int64.maxValue.toInt then
      some (.integer (Int64.ofInt i))
    else (Json.real? literal).map .real

/-- The byte of a document. -/
def byteOf? (v : Json) : Option UInt8 := do
  let n ← v.toWord?
  if n < 256 then some n.toUInt8 else none

/-- The cell of a document. -/
def ofJson? : Json → Option Cell
  | .null => some .null
  | .number literal => ofLiteral? literal
  | .text (some s) => some (.text s)
  | .array [.number significand, .number exponent] =>
    match Json.integer? significand, Json.integer? exponent with
    | some m, some e => some (.real ⟨m, e⟩)
    | _, _ => none
  | .array [.array bytes, .null] => (bytes.mapM byteOf?).map ofTextBytes
  | .array [.array bytes] => (bytes.mapM byteOf?).map .blob
  | _ => none

end Cell

namespace Row

/-- A row as a document: its cells from left to right. -/
def toJson (r : Row) : Json :=
  .array
    [r.id.toJson, r.name.toJson, r.selector.toJson, r.exporter.toJson, r.status.toJson,
      r.createdAt.toJson, r.durationMs.toJson, r.expiresAt.toJson]

/-- The row of a document. -/
def ofJson? (v : Json) : Option Row := do
  match ← Json.toList? Cell.ofJson? v with
  | [id, name, selector, exporter, status, createdAt, durationMs, expiresAt] =>
    some ⟨id, name, selector, exporter, status, createdAt, durationMs, expiresAt⟩
  | _ => none

end Row

/-- A database in a file, as a document: whether it keeps a shared log, and its table of leases, if
it has one. -/
def databaseJson (t : Option LeaseTable) (hasLog : Bool) : Json :=
  .ofFields
    [("log", .bool hasLog),
      ("leases", t.elim .null fun t => .array (t.rows.map Row.toJson))]

/-- The table of a document. -/
def tableOf? : Json → Option (Option LeaseTable)
  | .null => some none
  | v => (Json.toList? Row.ofJson? v).map fun rows => some ⟨rows⟩

namespace FileContent

/-- The database of a document. -/
def ofJson? (v : Json) : Option FileContent := do
  let fs ← v.fields? ["log", "leases"]
  let hasLog ← Json.field fs "log" Json.toBool?
  match ← Json.field fs "leases" tableOf? with
  | some t => some (.database t hasLog)
  | none => some (.foreign hasLog)

/-- What a file with the given bytes holds. -/
def ofFile (bytes : ByteArray) : FileContent :=
  (((String.fromUTF8? bytes).bind Json.parse?).bind ofJson?).getD (ofBytes bytes)

/-- The bytes of the file that holds something. -/
def toFile : FileContent → ByteArray
  | .plain bytes => ⟨bytes.toArray⟩
  | .database t hasLog => (databaseJson (some t) hasLog).compact.toUTF8
  | .foreign hasLog => (databaseJson none hasLog).compact.toUTF8

end FileContent

end LabLease
