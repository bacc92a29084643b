import LabLease.Binary
import LabLease.Decimal

/-!
# Binary numbers in decimal digits

How a database gets from a binary number to decimal digits and back. In either direction the number
is multiplied by powers of ten, in steps of a hundred, ten and one decimal places, and every product
is rounded to the working precision.

`Binary.toDecimal` scales a number until its whole part has eighteen or nineteen digits and takes
those. `Decimal.toBinary` takes the first nineteen or twenty digits of a decimal as a whole number
and scales that.
-/

namespace LabLease

namespace Binary

/-- A power of ten in the working precision. -/
def ten (k : Int) : Binary := tenTo .working k

/-- Multiplies by a power of ten as long as a condition holds and at most as often as the second
argument says; the exponent of ten that goes with the number makes up for it. -/
def scaleWhile (condition : Binary → Bool) : Nat → Int → Binary × Int → Binary × Int
  | 0, _, (x, e) => (x, e)
  | n + 1, k, (x, e) =>
    if condition x then scaleWhile condition n k (product .working x (ten k), e - k) else (x, e)

/-- How often one step is repeated at most. No number of the stored precision needs more. -/
def mostSteps : Nat := 12

/-- A positive number, scaled to between `10 ^ 17` and `10 ^ 19`, with the exponent of ten that
makes up for it. -/
def scaled (x : Binary) : Binary × Int :=
  let down (k : Int) := scaleWhile (fun x => !x.isBelow (ten (19 + k))) mostSteps (-k - 1)
  let up (least : Int) := scaleWhile (fun x => x.isBelow (ten least)) mostSteps
  if x.isBelow (ten 19) then up 17 1 (up 7 10 (up (-97) 100 (x, 0)))
  else down 0 (down 9 (down 99 (x, 0)))

/-- The first digits of a number: eighteen or nineteen of them. -/
def toDecimal (x : Binary) : Decimal :=
  if x.significand = 0 then ⟨0, 0⟩
  else
    let (size, exponent) := scaled ⟨x.significand.natAbs, x.exponent⟩
    ⟨x.significand.sign * size.wholePart, exponent⟩

end Binary

namespace Decimal

/-- A whole number with this many tenths or more gets no further digit. -/
def enough : Nat := 1844674407370955160

/-- Drops digits at the end as long as enough are left; gives the exponent of ten that makes up for
it. -/
def cut (n : Nat) : Nat × Nat :=
  if h : enough ≤ n / 10 then
    have : n / 10 < n := by simp only [enough] at h; omega
    ((cut (n / 10)).1, (cut (n / 10)).2 + 1)
  else (n, 0)
termination_by n

/-- Moves factors ten from a power of ten into the number in front, as long as it stays small. -/
def fill : Nat → Nat → Nat × Nat
  | n, 0 => (n, 0)
  | n, e + 1 => if n ≤ enough then fill (10 * n) e else (n, e + 1)

/-- Takes factors ten out of a number to make up for a division by a power of ten. -/
def strip : Nat → Nat → Nat × Nat
  | n, 0 => (n, 0)
  | n, e + 1 => if n % 10 = 0 then strip (n / 10) e else (n, e + 1)

/-- Multiplies by as many powers of ten as three counts say: of a hundred places, ten and one, in
the given direction. -/
def scale (direction : Int) (places : Nat) (x : Binary) : Binary :=
  let times (k : Int) (count : Nat) (x : Binary) : Binary :=
    Nat.repeat (fun x => .product .working x (.ten (direction * k))) count x
  times 1 (places % 10) (times 10 (places % 100 / 10) (times 100 (places / 100) x))

/-- The size of a decimal that is not zero, from its digits and its exponent of ten. -/
def sizeToBinary (digits : Nat) (exponent : Int) : Binary :=
  let (n, dropped) := cut digits
  let e := exponent + dropped
  if 0 ≤ e then
    let (n, places) := fill n e.toNat
    scale 1 places (.ofNat n)
  else
    let (n, places) := strip n (-e).toNat
    scale (-1) places (.ofNat n)

/-- The stored number that a decimal is read as. -/
def toBinary (d : Decimal) : Binary :=
  if d.coefficient = 0 then .ofNat 0
  else
    let size := Binary.round .stored (sizeToBinary d.coefficient.natAbs d.exponent)
    { size with significand := d.coefficient.sign * size.significand }

end Decimal

end LabLease
