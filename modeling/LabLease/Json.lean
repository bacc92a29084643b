/-!
# JSON values

A JSON document as a value, with as much of its text as matters: a number keeps its literal, since
its size has no bound and an integer is told from a real by how it is written, and an object keeps
its members in their order, repeated keys included. A string literal can hold half of a surrogate
pair and then denotes no text; such a string, or such a key, is `none`.

`Json.Writer` writes values and `Json.Reader` reads them; `Json.Record` is how records stand in
them.
-/

namespace LabLease

/-- A JSON value. -/
inductive Json
  | null
  | bool (value : Bool)
  /-- A number, by its literal. -/
  | number (literal : String)
  /-- A string, with the text that it denotes. -/
  | text (value : Option String)
  | array (elements : List Json)
  | object (members : List (Option String × Json))
deriving Repr, Inhabited

namespace Json

/-- The string that denotes a text. -/
def ofText (s : String) : Json := .text (some s)

/-- The number of a natural number. -/
def ofNat (n : Nat) : Json := .number (Nat.repr n)

/-- The object with the given members. -/
def ofFields (fields : List (String × Json)) : Json :=
  .object (fields.map fun (key, value) => (some key, value))

end Json

end LabLease
