/-!
# Decimal numbers

A `Decimal` is an integer times a power of ten, so it stands for every finite decimal exactly. Two
things are asked of it: its written form with at most fifteen significant digits (`Decimal.text`),
and which number a numeral denotes (`Decimal.parse?`).

Both work on the digits and never evaluate the power of ten, whose size a numeral hardly bounds.
-/

namespace LabLease

/-- The number `coefficient * 10 ^ exponent`. -/
structure Decimal where
  /-- The factor in front of the power of ten. -/
  coefficient : Int
  /-- The power of ten. -/
  exponent : Int
deriving DecidableEq, Repr, Inhabited

namespace Decimal

/-- The list without the zeros at its end. -/
def dropZeros (digits : List Char) : List Char := (digits.reverse.dropWhile (· == '0')).reverse

/-- The significant digits; there are none for zero. -/
def digits (d : Decimal) : List Char := dropZeros (Nat.toDigits 10 d.coefficient.natAbs)

/-- The place of the decimal point, counted from the front of the significant digits: the number is
that power of ten times the fraction whose places are the digits. -/
def point (d : Decimal) : Int := (Nat.toDigits 10 d.coefficient.natAbs).length + d.exponent

/-- The value of a list of decimal digits. -/
def value (digits : List Char) : Nat := Nat.ofDigitChars 10 digits 0

/-- How many significant digits the written form has at most. -/
def precision : Nat := 15

/-- The significant digits and the place of the point, rounded to the precision; a half goes up. -/
def rounded (d : Decimal) : List Char × Int :=
  let kept := value (d.digits.take precision)
  let up := match d.digits[precision]? with
    | some c => decide ('5' ≤ c)
    | none => false
  if d.digits.length ≤ precision then (d.digits, d.point)
  else
    let digits := Nat.toDigits 10 (if up then kept + 1 else kept)
    (dropZeros digits, d.point + (digits.length - precision : Nat))

/-- An exponent with its sign and at least two digits. -/
def exponentText (e : Int) : List Char :=
  let digits := Nat.toDigits 10 e.natAbs
  (if e < 0 then '-' else '+') :: (List.replicate (2 - digits.length) '0' ++ digits)

/-- The places after the point, of which there is at least one. -/
def placesText : List Char → List Char
  | [] => ['.', '0']
  | places => '.' :: places

/-- The written form: positional from a ten-thousandth up to fifteen digits before the point, else
with an exponent. There is always a digit on either side of the point. -/
def text (d : Decimal) : String :=
  let (digits, point) := d.rounded
  let sign := if d.coefficient < 0 then ['-'] else []
  let body :=
    if digits = [] then ['0', '.', '0']
    else if point < -3 || 15 < point then
      digits.take 1 ++ placesText (digits.drop 1) ++ 'e' :: exponentText (point - 1)
    else if point ≤ 0 then '0' :: '.' :: List.replicate (-point).toNat '0' ++ digits
    else
      digits.take point.toNat ++ List.replicate (point.toNat - digits.length) '0' ++
        placesText (digits.drop point.toNat)
  String.ofList (sign ++ body)

/-- A blank character between numerals: a space, a tab or a line break. -/
def isSpace (c : Char) : Bool := c == ' ' || ('\u0009' ≤ c && c ≤ '\u000d')

/-- A leading sign and what follows it; without one, the sign is positive. -/
def readSign : List Char → Int × List Char
  | '-' :: cs => (-1, cs)
  | '+' :: cs => (1, cs)
  | cs => (1, cs)

/-- A fraction behind a point, if there is a point, with what follows. -/
def readFraction : List Char → Option (List Char) × List Char
  | '.' :: cs => (some (cs.takeWhile Char.isDigit), cs.dropWhile Char.isDigit)
  | cs => (none, cs)

/-- The size of an exponent with the given digits. From ten thousand on only one more digit counts,
and with a further one the exponent is taken to be ten thousand. -/
def exponentSize (digits : List Char) : Nat :=
  digits.foldl (fun e c => if e < 10000 then 10 * e + value [c] else 10000) 0

/-- An exponent, if there is one, with what follows; nothing, if it has no digits. -/
def readExponent : List Char → Option (Option Int × List Char)
  | c :: cs =>
    if c = 'e' || c = 'E' then
      let (sign, cs) := readSign cs
      match cs.takeWhile Char.isDigit with
      | [] => none
      | digits => some (some (sign * exponentSize digits), cs.dropWhile Char.isDigit)
    else some (none, c :: cs)
  | [] => some (none, [])

/-- The number that a numeral denotes, and whether it is written as an integer: an optional sign,
digits with an optional point among or around them, and an optional exponent, with space allowed
on either side. -/
def parse? (numeral : String) : Option (Decimal × Bool) :=
  let (sign, cs) := readSign (numeral.toList.dropWhile isSpace)
  let front := cs.takeWhile Char.isDigit
  let (fraction, cs) := readFraction (cs.dropWhile Char.isDigit)
  let places := fraction.getD []
  match readExponent cs with
  | none => none
  | some (exponent, cs) =>
    if (front ++ places).isEmpty || !cs.all isSpace then none
    else
      some (⟨sign * value (front ++ places), exponent.getD 0 - places.length⟩,
        fraction.isNone && exponent.isNone)

end Decimal

end LabLease
