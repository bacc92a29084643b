import LabLease.Json
import LabLease.Json.Quoted

/-!
# Writing JSON

Two written forms of a value: `Json.compact`, without any white space, and `Json.pretty`, with one
element or member a line, two spaces deeper than what holds it.
-/

namespace LabLease.Json

/-- The word for a truth value. -/
def word (b : Bool) : List Char := if b then ['t', 'r', 'u', 'e'] else ['f', 'a', 'l', 's', 'e']

mutual

/-- The characters of a value's compact form. -/
def chars : Json → List Char
  | .null => ['n', 'u', 'l', 'l']
  | .bool b => word b
  | .number literal => literal.toList
  | .text s => quote s
  | .array [] => ['[', ']']
  | .array (v :: vs) => '[' :: chars v ++ moreElements vs
  | .object [] => ['{', '}']
  | .object ((k, v) :: ms) => '{' :: quote k ++ ':' :: chars v ++ moreMembers ms

/-- Further elements of an array, and its end. -/
def moreElements : List Json → List Char
  | [] => [']']
  | v :: vs => ',' :: chars v ++ moreElements vs

/-- Further members of an object, and its end. -/
def moreMembers : List (Option String × Json) → List Char
  | [] => ['}']
  | (k, v) :: ms => ',' :: quote k ++ ':' :: chars v ++ moreMembers ms

end

/-- The compact form of a value. -/
def compact (v : Json) : String := String.ofList v.chars

/-- A line break, and the spaces of a depth. -/
def line (depth : Nat) : List Char := '\n' :: List.replicate (2 * depth) ' '

mutual

/-- The characters of a value's pretty form at a depth. -/
def prettyChars (depth : Nat) : Json → List Char
  | .null => ['n', 'u', 'l', 'l']
  | .bool b => word b
  | .number literal => literal.toList
  | .text s => quote s
  | .array [] => ['[', ']']
  | .array (v :: vs) =>
    '[' :: line (depth + 1) ++ prettyChars (depth + 1) v ++ morePrettyElements depth vs
  | .object [] => ['{', '}']
  | .object ((k, v) :: ms) =>
    '{' :: line (depth + 1) ++ quote k ++ ':' :: ' ' :: prettyChars (depth + 1) v ++
      morePrettyMembers depth ms

/-- Further elements of an array at a depth, and its end. -/
def morePrettyElements (depth : Nat) : List Json → List Char
  | [] => line depth ++ [']']
  | v :: vs =>
    ',' :: line (depth + 1) ++ prettyChars (depth + 1) v ++ morePrettyElements depth vs

/-- Further members of an object at a depth, and its end. -/
def morePrettyMembers (depth : Nat) : List (Option String × Json) → List Char
  | [] => line depth ++ ['}']
  | (k, v) :: ms =>
    ',' :: line (depth + 1) ++ quote k ++ ':' :: ' ' :: prettyChars (depth + 1) v ++
      morePrettyMembers depth ms

end

/-- The pretty form of a value. -/
def pretty (v : Json) : String := String.ofList (v.prettyChars 0)

end LabLease.Json
