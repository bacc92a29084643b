import LabLease.Document
import LabLease.Registry

/-!
# Inventories

An inventory is a list of exporters in a file, from which a registry is filled. It is refused if an
exporter has the empty identifier or one that an earlier exporter has, so that a registry lists
exactly the exporters of the inventory.
-/

namespace LabLease

/-- A list of exporters. Reference: `Inventory`, §14. -/
structure Inventory where
  /-- The exporters, in the order of the file. -/
  exporters : List Exporter := []
deriving DecidableEq, Repr, Inhabited

namespace Inventory

/-- What is wrong with a list of exporters behind others with the identifiers `seen`, if anything
is: the first flaw in the list's order. Reference: the loop of `Inventory.from_json`. -/
def flawAfter? (seen : List String) : List Exporter → Option ConfigFlaw
  | [] => none
  | e :: es =>
    if e.id = "" then some .emptyExporterId
    else if e.id ∈ seen then some (.repeatedExporterId e.id)
    else flawAfter? (e.id :: seen) es

/-- What is wrong with an inventory, if anything is. -/
def flaw? (inv : Inventory) : Option ConfigFlaw := flawAfter? [] inv.exporters

/-- An inventory as a document. -/
def toJson (inv : Inventory) : Json :=
  .ofFields [("exporters", .array (inv.exporters.map Exporter.toJson))]

/-- The inventory of a document, whether or not it has a flaw. -/
def ofJson? (v : Json) : Option Inventory := do
  let fs ← v.fields? ["exporters"]
  let exporters ← Json.fieldOr fs "exporters" [] (Json.toList? Exporter.ofJson?)
  some ⟨exporters⟩

/-- Reads an inventory. If the text is no document of one, that is told in the words of the reader
of documents, `complaint`. Reference: `Inventory.from_json`. -/
def parse (complaint text : String) : Except Failure Inventory :=
  match (Json.parse? text).bind ofJson? with
  | none => .error (.invalidConfig (.malformedInventory complaint))
  | some inv =>
    match inv.flaw? with
    | some flaw => .error (.invalidConfig flaw)
    | none => .ok inv

/-- The inventory from what was read under a path. Reference: `Inventory.load`. -/
def load (path complaint : String) : Except FileFault String → Except Failure Inventory
  | .error fault => .error (.invalidConfig (.unreadableInventory path fault))
  | .ok text => parse complaint text

/-- The registry of the exporters of an inventory. Reference: `Inventory.into_registry`. -/
def registry (inv : Inventory) : Registry := Registry.ofList inv.exporters

end Inventory

end LabLease
