import LabLease.Json
import LabLease.Text

/-!
# Records in JSON

A record with named fields stands in JSON as an object, or as an array of its fields in their order.
`Json.fields?` finds the fields in either. Members of an object that name no field are passed over;
a field that stands twice, a member whose name is no text and an element too many are refused.
Whether a field may be missing is for the reader of the record to say: `Json.field` demands it and
`Json.fieldOr` replaces it.
-/

namespace LabLease.Json

/-- The fields of a record, by name, in the order in which they stand. -/
abbrev Fields := List (String × Json)

/-- The members of an object that name a field. -/
def knownMembers (names : List String) (members : List (Option String × Json)) : Fields :=
  members.filterMap fun (key, v) =>
    match key with
    | some key => if key ∈ names then some (key, v) else none
    | none => none

/-- The fields of a record that has fields with the given names. -/
def fields? (names : List String) : Json → Option Fields
  | .array vs => if vs.length ≤ names.length then some (names.zip vs) else none
  | .object ms =>
    let known := knownMembers names ms
    if ms.all (·.1.isSome) ∧ (known.map (·.1)).Nodup then some known else none
  | _ => none

/-- Reads a field that must be there. -/
def field {α : Type} (fs : Fields) (name : String) (read : Json → Option α) : Option α :=
  match fs.lookup name with
  | some v => read v
  | none => none

/-- Reads a field that may be missing. -/
def fieldOr {α : Type} (fs : Fields) (name : String) (default : α) (read : Json → Option α) :
    Option α :=
  match fs.lookup name with
  | some v => read v
  | none => some default

/-- The text of a string. -/
def toText? : Json → Option String
  | .text s => s
  | _ => none

/-- The text of a string, or nothing for null. -/
def toOptionalText? : Json → Option (Option String)
  | .null => some none
  | .text s => s.map some
  | _ => none

/-- The value of a number of 64 bits that is written with digits alone. -/
def toWord? : Json → Option UInt64
  | .number literal => Text.word? literal.toList
  | _ => none

/-- The value of a word for a truth value. -/
def toBool? : Json → Option Bool
  | .bool b => some b
  | _ => none

/-- The elements of an array, each read the same way. -/
def toList? {α : Type} (read : Json → Option α) : Json → Option (List α)
  | .array vs => vs.mapM read
  | _ => none

/-- The entries of an object whose members are texts. -/
def toEntries? : Json → Option (List (String × String))
  | .object ms => ms.mapM fun (key, v) =>
    match key, v with
    | some key, .text (some s) => some (key, s)
    | _, _ => none
  | _ => none

end LabLease.Json
