import LabLease.Binary
import LabLease.Json.Numeral

/-!
# Numbers in JSON as integers and reals

A number literal is an integer if it has neither a fraction nor an exponent (`Json.integer?`); minus
zero is none. Any literal can be taken as a real number (`Json.real?`): its first digits, as many as
fit in 64 bits, are rounded to the stored precision and then multiplied or divided by a power of
ten, which is rounded as well. A literal that is too large for a real number has none.
-/

namespace LabLease.Json

/-- The parts of a number literal. -/
structure Literal where
  /-- Whether it has a minus sign. -/
  negative : Bool
  /-- The digits of its integer part. -/
  whole : List Char
  /-- The digits of its fraction. -/
  fraction : List Char
  /-- Its exponent, if it is given one. -/
  exponent : Option Int
deriving DecidableEq, Repr

namespace Literal

/-- The exponent that a sign and digits denote. -/
def readExponent (cs : List Char) : Int :=
  let (sign, digits) := readSign cs
  (if sign = ['-'] then -1 else 1) * Nat.ofDigitChars 10 digits 0

/-- The parts of a literal. -/
def ofText (literal : String) : Literal :=
  let (minus, cs) := readMinus literal.toList
  let whole := cs.takeWhile Char.isDigit
  let cs := cs.dropWhile Char.isDigit
  let (fraction, cs) := match cs with
    | '.' :: cs => (cs.takeWhile Char.isDigit, cs.dropWhile Char.isDigit)
    | cs => ([], cs)
  ⟨!minus.isEmpty, whole, fraction, cs.tail?.map readExponent⟩

/-- Appends digits to a whole number for as long as it fits in 64 bits; gives what is left. -/
def append : Nat → List Char → Nat × List Char
  | n, [] => (n, [])
  | n, c :: cs =>
    let more := Nat.ofDigitChars 10 [c] n
    if more < UInt64.size then append more cs else (n, c :: cs)

/-- The stored power of ten with up to 308 places. -/
def ten (places : Nat) : Binary := .tenTo .stored places

/-- Divides by a power of ten. One with more than 308 places is divided into such that have as many
and one more, and after three of them nothing is left of a number. -/
def divide (x : Binary) (places : Nat) : Binary :=
  let full := (places - 1) / 308
  .quotient .stored (Nat.repeat (fun x => .quotient .stored x (ten 308)) (min full 3) x)
    (ten (places - 308 * full))

/-- The size of a literal as a real number. -/
def size? (l : Literal) : Option Binary :=
  let (n, rest) := append 0 l.whole
  let (n, dropped) := append n l.fraction
  let e := l.exponent.getD 0 + rest.length - (l.fraction.length - dropped.length : Nat)
  let x := Binary.round .stored (.ofNat n)
  if n = 0 then some x
  else if e < 0 then some (divide x (-e).toNat)
  else if 308 < e then none
  else
    let y := Binary.product .stored x (ten e.toNat)
    if y.isBelow ⟨1, 1024⟩ then some y else none

end Literal

/-- The integer that a literal denotes, if it is written as one. -/
def integer? (literal : String) : Option Int :=
  let l := Literal.ofText literal
  let n : Int := Nat.ofDigitChars 10 l.whole 0
  if l.fraction ≠ [] ∨ l.exponent ≠ none ∨ (l.negative ∧ n = 0) then none
  else some (if l.negative then -n else n)

/-- The real number that a literal is taken for. -/
def real? (literal : String) : Option Binary :=
  let l := Literal.ofText literal
  l.size?.map fun x => if l.negative then { x with significand := -x.significand } else x

end LabLease.Json
