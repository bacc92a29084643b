import LabLease.Exporter
import LabLease.Failure
import LabLease.Text

/-!
# Selectors

A selector is a list of clauses, each demanding one value of one label. In a text the clauses
stand between commas, each as a key, an equals sign and a value; blank characters around a clause,
a key or a value do not count, and a blank text is the selector without clauses, which every label
set satisfies. A comma always separates, and the first equals sign of a clause divides it, so a
key holds neither and a value holds no comma.

`Selector.parse` keeps the text beside the clauses, because a lease records it verbatim.
-/

namespace LabLease

/-- One demand on a label set: the value of a key. -/
structure Clause where
  /-- The key that must be present. -/
  key : String
  /-- The value it must have. -/
  value : String
deriving DecidableEq, Repr

/-- A conjunction of clauses, with the text it was read from. Reference: `Selector`, §4.2. -/
structure Selector where
  /-- The text as it was given. -/
  text : String
  /-- The demands. -/
  clauses : List Clause
deriving DecidableEq, Repr

namespace Clause

/-- The label set has the key, with exactly the value. -/
def holds (c : Clause) (labels : Labels) : Bool := labels.find? c.key == some c.value

/-- Divides a text at its first equals sign. -/
def divide : List Char → Option (List Char × List Char)
  | [] => none
  | c :: cs => if c = '=' then some ([], cs) else (divide cs).map fun (k, v) => (c :: k, v)

/-- Reads one clause. -/
def parse (piece : List Char) : Except SelectorFlaw Clause :=
  let clause := Text.trim piece
  match divide clause with
  | none => .error (.missingEquals (String.ofList clause))
  | some (key, value) =>
    match Text.trim key with
    | [] => .error (.emptyKey (String.ofList clause))
    | key => .ok ⟨String.ofList key, String.ofList (Text.trim value)⟩

/-- Reads the clauses of a list of pieces, up to the first that has a flaw. -/
def parseAll : List (List Char) → Except SelectorFlaw (List Clause)
  | [] => .ok []
  | piece :: pieces =>
    match parse piece with
    | .error flaw => .error flaw
    | .ok clause =>
      match parseAll pieces with
      | .error flaw => .error flaw
      | .ok clauses => .ok (clause :: clauses)

end Clause

namespace Selector

/-- The selector that every label set satisfies. Reference: `Selector.any`. -/
def any : Selector := ⟨"", []⟩

/-- Reads a selector. Reference: `Selector.parse`, §4.2. -/
def parse (text : String) : Except Failure Selector :=
  if Text.allBlank text then .ok ⟨text, []⟩
  else
    match Clause.parseAll (text.toList.splitOn ',') with
    | .error flaw => .error (.invalidSelector text flaw)
    | .ok clauses => .ok ⟨text, clauses⟩

/-- Reads a selector that may be left out; leaving it out demands nothing. -/
def parseOptional : Option String → Except Failure Selector
  | none => .ok any
  | some text => parse text

/-- A selector that demands nothing. Reference: `Selector.is_empty`. -/
def isEmpty (s : Selector) : Bool := s.clauses.isEmpty

/-- The label set satisfies every clause. Reference: `Selector.matches`, §4.2. -/
def holds (s : Selector) (labels : Labels) : Bool := s.clauses.all (·.holds labels)

end Selector

end LabLease
