import LabLease.Json
import LabLease.Json.Numeral
import LabLease.Json.Quoted

/-!
# Reading JSON

A strict reader: white space is the space, the tab and the two line breaks, numbers have no leading
zeros, strings no bare control characters, lists no trailing commas, and nothing but white space
follows the value. `Json.parse?` gives the value of a text, or nothing if the text is not JSON.
-/

namespace LabLease.Json

/-- White space between the parts of a value. -/
def isSpace (c : Char) : Bool := c == ' ' || c == '\t' || c == '\n' || c == '\r'

/-- What follows any white space. -/
def skipSpace (cs : List Char) : List Char := cs.dropWhile isSpace

/-- What follows a word, if the text starts with it. -/
def afterWord (word cs : List Char) : Option (List Char) :=
  if word.isPrefixOf cs then some (cs.drop word.length) else none

/-- Reads a value that is neither a string, an array nor an object. -/
def readScalar (cs : List Char) : Option (Json × List Char) :=
  match afterWord ['n', 'u', 'l', 'l'] cs with
  | some rest => some (.null, rest)
  | none =>
    match afterWord ['t', 'r', 'u', 'e'] cs with
    | some rest => some (.bool true, rest)
    | none =>
      match afterWord ['f', 'a', 'l', 's', 'e'] cs with
      | some rest => some (.bool false, rest)
      | none => (readNumber cs).map fun (literal, rest) => (.number (String.ofList literal), rest)

mutual

/-- Reads a value, with any white space in front of it. The first argument bounds the depth of the
recursion; twice the length of the text suffices. -/
def readValue : Nat → List Char → Option (Json × List Char)
  | 0, _ => none
  | fuel + 1, cs =>
    match skipSpace cs with
    | [] => none
    | c :: cs =>
      if c = '"' then (readText cs).map fun (s, rest) => (.text s, rest)
      else if c = '[' then
        match skipSpace cs with
        | ']' :: rest => some (.array [], rest)
        | cs => (readElements fuel cs).map fun (vs, rest) => (.array vs, rest)
      else if c = '{' then
        match skipSpace cs with
        | '}' :: rest => some (.object [], rest)
        | cs => (readMembers fuel cs).map fun (ms, rest) => (.object ms, rest)
      else readScalar (c :: cs)

/-- Reads the elements of an array, of which there is at least one, up to its end. -/
def readElements : Nat → List Char → Option (List Json × List Char)
  | 0, _ => none
  | fuel + 1, cs =>
    match readValue fuel cs with
    | none => none
    | some (v, cs) =>
      match skipSpace cs with
      | ']' :: rest => some ([v], rest)
      | ',' :: cs => (readElements fuel cs).map fun (vs, rest) => (v :: vs, rest)
      | _ => none

/-- Reads the members of an object, of which there is at least one, up to its end. -/
def readMembers : Nat → List Char → Option (List (Option String × Json) × List Char)
  | 0, _ => none
  | fuel + 1, cs =>
    match skipSpace cs with
    | '"' :: cs =>
      match readText cs with
      | none => none
      | some (key, cs) =>
        match skipSpace cs with
        | ':' :: cs =>
          match readValue fuel cs with
          | none => none
          | some (v, cs) =>
            match skipSpace cs with
            | '}' :: rest => some ([(key, v)], rest)
            | ',' :: cs => (readMembers fuel cs).map fun (ms, rest) => ((key, v) :: ms, rest)
            | _ => none
        | _ => none
    | _ => none

end

/-- The value of a text. -/
def parse? (s : String) : Option Json :=
  match readValue (2 * s.toList.length + 2) s.toList with
  | some (v, rest) => if (skipSpace rest).isEmpty then some v else none
  | none => none

end LabLease.Json
