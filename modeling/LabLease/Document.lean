import LabLease.Exporter
import LabLease.Json.Reader
import LabLease.Json.Record
import LabLease.Json.Writer
import LabLease.Lease

/-!
# Leases and exporters as documents

How the records of the broker stand in JSON. A lease without a name has no member for it; a record
that is read may also leave out what has a default: the labels of an exporter and whether it can be
reached. Nothing else may be missing, and no default stands for null.
-/

namespace LabLease

namespace Status

/-- The status that a value names: by a string, or by an object whose one member has that name and
carries nothing. -/
def ofJson? : Json → Option Status
  | .text (some s) => ofText? s
  | .object [(some s, .null)] => ofText? s
  | _ => none

end Status

namespace Lease

/-- The names of a lease's fields, in their order. -/
def fieldNames : List String :=
  ["id", "name", "selector", "resource_id", "state", "created_at", "duration_ms", "expires_at"]

/-- The member for the name of a lease, if it has one. -/
def nameField (key : String) : Option String → Json.Fields
  | none => []
  | some name => [(key, .ofText name)]

/-- A lease as a document. -/
def toJson (l : Lease) : Json :=
  .ofFields <|
    [("id", .ofText l.id)] ++ nameField "name" l.name ++
    [("selector", .ofText l.selector), ("resource_id", .ofText l.exporter),
      ("state", .ofText l.status.text), ("created_at", .ofNat l.createdAt.toNat),
      ("duration_ms", .ofNat l.durationMs.toNat), ("expires_at", .ofNat l.expiresAt.toNat)]

/-- The lease of a document. -/
def ofJson? (v : Json) : Option Lease := do
  let fs ← v.fields? fieldNames
  let id ← Json.field fs "id" Json.toText?
  let name ← Json.fieldOr fs "name" none Json.toOptionalText?
  let selector ← Json.field fs "selector" Json.toText?
  let exporter ← Json.field fs "resource_id" Json.toText?
  let status ← Json.field fs "state" Status.ofJson?
  let createdAt ← Json.field fs "created_at" Json.toWord?
  let durationMs ← Json.field fs "duration_ms" Json.toWord?
  let expiresAt ← Json.field fs "expires_at" Json.toWord?
  some ⟨id, name, selector, exporter, status, createdAt, durationMs, expiresAt⟩

end Lease

namespace Labels

/-- A label set as a document, its keys in ascending order. -/
def toJson (labels : Labels) : Json :=
  .ofFields (labels.entries.map fun (key, value) => (key, .ofText value))

/-- The label set of a document; of several values for one key the last counts. -/
def ofJson? (v : Json) : Option Labels := (v.toEntries?).map KeyMap.ofList

end Labels

namespace Exporter

/-- The names of an exporter's fields, in their order. -/
def fieldNames : List String := ["id", "labels", "online"]

/-- An exporter as a document. -/
def toJson (e : Exporter) : Json :=
  .ofFields [("id", .ofText e.id), ("labels", Labels.toJson e.labels), ("online", .bool e.online)]

/-- The exporter of a document. -/
def ofJson? (v : Json) : Option Exporter := do
  let fs ← v.fields? fieldNames
  let id ← Json.field fs "id" Json.toText?
  let labels ← Json.fieldOr fs "labels" KeyMap.empty Labels.ofJson?
  let online ← Json.fieldOr fs "online" true Json.toBool?
  some ⟨id, labels, online⟩

end Exporter

end LabLease
