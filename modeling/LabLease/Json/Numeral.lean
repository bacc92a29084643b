/-!
# Number literals

A number is an optional minus sign, a zero or digits that start with none, an optional fraction and
an optional exponent. `Json.readNumber` reads the longest such literal in front of a text.
-/

namespace LabLease.Json

/-- Reads one or more digits. -/
def readDigits (cs : List Char) : Option (List Char × List Char) :=
  match cs.takeWhile Char.isDigit with
  | [] => none
  | digits => some (digits, cs.dropWhile Char.isDigit)

/-- Reads the integer part of a number: a zero alone, or digits that start with none. -/
def readWhole : List Char → Option (List Char × List Char)
  | '0' :: cs => some (['0'], cs)
  | cs => readDigits cs

/-- Reads the fraction of a number, if it has one. -/
def readFraction : List Char → Option (List Char × List Char)
  | '.' :: cs => (readDigits cs).map fun (digits, rest) => ('.' :: digits, rest)
  | cs => some ([], cs)

/-- Reads a sign, if there is one. -/
def readSign : List Char → List Char × List Char
  | '+' :: cs => (['+'], cs)
  | '-' :: cs => (['-'], cs)
  | cs => ([], cs)

/-- Reads the exponent of a number, if it has one. -/
def readExponent : List Char → Option (List Char × List Char)
  | c :: cs =>
    if c = 'e' ∨ c = 'E' then
      (readDigits (readSign cs).2).map fun (digits, rest) =>
        (c :: (readSign cs).1 ++ digits, rest)
    else some ([], c :: cs)
  | [] => some ([], [])

/-- Reads the minus sign of a number, if it has one. -/
def readMinus : List Char → List Char × List Char
  | '-' :: cs => (['-'], cs)
  | cs => ([], cs)

/-- Reads the literal of a number. -/
def readNumber (cs : List Char) : Option (List Char × List Char) := do
  let (minus, cs) := readMinus cs
  let (whole, cs) ← readWhole cs
  let (fraction, cs) ← readFraction cs
  let (exponent, cs) ← readExponent cs
  some (minus ++ whole ++ fraction ++ exponent, cs)

end LabLease.Json
