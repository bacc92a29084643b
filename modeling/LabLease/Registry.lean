import LabLease.Exporter
import LabLease.Failure

/-!
# The registry of known exporters

A registry holds one record per exporter, under the exporter's own identifier. Discovery replaces
the whole set at once (`Registry.refresh`) or single records; every update replaces whole records.
The broker reads it through `Registry.list`, which ascends by identifier.
-/

namespace LabLease

/-- The known exporters, by identifier. Reference: `InMemoryRegistry`, §4.1. -/
structure Registry where
  /-- The record of each exporter, under its identifier. -/
  byId : KeyMap Exporter
deriving DecidableEq, Repr, Inhabited

namespace Registry

/-- The registry that knows no exporter. Reference: `InMemoryRegistry.new`. -/
def empty : Registry := ⟨KeyMap.empty⟩

/-- Puts in one record, in place of the one that was there. Reference: `InMemoryRegistry.upsert`. -/
def upsert (r : Registry) (e : Exporter) : Registry := ⟨r.byId.insert e.id e⟩

/-- The registry of a list of exporters; of several with one identifier the last counts. Reference:
`InMemoryRegistry.from_resources`. -/
def ofList (exporters : List Exporter) : Registry := exporters.foldl upsert empty

/-- Replaces all records by those of a list. Reference: `InMemoryRegistry.refresh`. -/
def refresh (_ : Registry) (exporters : List Exporter) : Registry := ofList exporters

/-- Takes out the record of an exporter, and gives it if there was one. Reference:
`InMemoryRegistry.remove`. -/
def remove (r : Registry) (id : String) : Option Exporter × Registry :=
  (r.byId.find? id, ⟨r.byId.erase id⟩)

/-- Records whether an exporter can be reached. Reference: `InMemoryRegistry.set_online`. -/
def setOnline (r : Registry) (id : String) (online : Bool) : Except Failure Registry :=
  match r.byId.find? id with
  | none => .error (.unknownExporter id)
  | some e => .ok ⟨r.byId.insert id { e with online := online }⟩

/-- The known exporters, in ascending order of their identifiers. Reference:
`InMemoryRegistry.list`. -/
def list (r : Registry) : List Exporter := r.byId.values

/-- The record of an exporter. Reference: `InMemoryRegistry.get`. -/
def get (r : Registry) (id : String) : Except Failure Exporter :=
  match r.byId.find? id with
  | none => .error (.unknownExporter id)
  | some e => .ok e

/-- The number of known exporters. Reference: `InMemoryRegistry.len`. -/
def size (r : Registry) : Nat := r.byId.size

end Registry

end LabLease
