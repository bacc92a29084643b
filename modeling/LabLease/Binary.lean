/-!
# Binary numbers

A `Binary` is an integer times a power of two. The real numbers of a database are such numbers of
a limited precision: 53 binary digits, none of them of a lower weight than `2 ^ -1074`
(`Precision.stored`). Computations on the way from and to decimal digits keep 64 binary digits
(`Precision.working`).

`Binary.round` is the closest number of a precision, and of two closest ones the even one. Products,
quotients and powers of ten are the exact ones, rounded once. All of it is arithmetic of whole
numbers; `Binary.nearest_near` says that rounding a quotient is off by half a unit at most.
-/

namespace LabLease

/-- The number `significand * 2 ^ exponent`. -/
structure Binary where
  /-- The factor in front of the power of two. -/
  significand : Int
  /-- The power of two. -/
  exponent : Int
deriving DecidableEq, Repr, Inhabited

/-- How finely numbers are kept. -/
structure Precision where
  /-- How many binary digits a number has at most. -/
  digits : Nat
  /-- The lowest power of two that is the weight of a digit, if there is a lowest one. -/
  least : Option Int
deriving DecidableEq, Repr

namespace Precision

/-- The precision in which a database keeps real numbers. -/
def stored : Precision := ⟨53, some (-1074)⟩

/-- The precision of computations with powers of ten. -/
def working : Precision := ⟨64, none⟩

end Precision

namespace Binary

/-- The whole number closest to a quotient; of two closest ones the even one. -/
def nearest (n d : Nat) : Nat :=
  if 2 * (n % d) > d || (2 * (n % d) == d && n / d % 2 == 1) then n / d + 1 else n / d

/-- A quotient and the whole number closest to it are at most half a unit apart. -/
theorem nearest_near (n : Nat) {d : Nat} (h : 0 < d) :
    2 * (nearest n d * d) ≤ 2 * n + d ∧ 2 * n ≤ 2 * (nearest n d * d) + d := by
  have hn : n / d * d + n % d = n := by rw [Nat.mul_comm]; exact Nat.div_add_mod n d
  have hr : n % d < d := Nat.mod_lt n h
  unfold nearest
  split
  · next hup =>
    rw [Nat.add_mul]
    simp only [Bool.or_eq_true, decide_eq_true_eq, Bool.and_eq_true, beq_iff_eq] at hup
    omega
  · next hdown =>
    simp only [Bool.or_eq_true, decide_eq_true_eq, Bool.and_eq_true, beq_iff_eq] at hdown
    omega

/-- How many binary digits a whole number has. -/
def width (n : Nat) : Nat := if n = 0 then 0 else Nat.log2 n + 1

/-- The closest number of a precision; of two closest ones the even one. -/
def round (p : Precision) (x : Binary) : Binary :=
  let below := match p.least with
    | none => 0
    | some least => (least - x.exponent).toNat
  let lost := max (width x.significand.natAbs - p.digits) below
  ⟨x.significand.sign * nearest x.significand.natAbs (Nat.pow 2 lost), x.exponent + lost⟩

/-- A product, rounded. -/
def product (p : Precision) (x y : Binary) : Binary :=
  round p ⟨x.significand * y.significand, x.exponent + y.exponent⟩

/-- A quotient, rounded. The exact one is cut off behind more digits than are kept, and a last digit
says whether anything was cut off. -/
def quotient (p : Precision) (x y : Binary) : Binary :=
  let n := x.significand.natAbs
  let d := y.significand.natAbs
  let more := p.digits + 2 + width d - width n
  let cutOff := if n * Nat.pow 2 more % d = 0 then 0 else 1
  let digits := 2 * (n * Nat.pow 2 more / d) + cutOff
  round p ⟨x.significand.sign * y.significand.sign * digits, x.exponent - y.exponent - more - 1⟩

/-- The whole number `n`. -/
def ofNat (n : Nat) : Binary := ⟨n, 0⟩

/-- A power of ten, rounded. -/
def tenTo (p : Precision) (k : Int) : Binary :=
  if 0 ≤ k then round p (ofNat (Nat.pow 10 k.toNat))
  else quotient p (ofNat 1) (ofNat (Nat.pow 10 (-k).toNat))

/-- Whether one number is below another. -/
def isBelow (x y : Binary) : Bool :=
  let least := min x.exponent y.exponent
  decide (x.significand * Int.pow 2 (x.exponent - least).toNat <
    y.significand * Int.pow 2 (y.exponent - least).toNat)

/-- The whole part of the size of a number. -/
def wholePart (x : Binary) : Nat :=
  x.significand.natAbs * Nat.pow 2 x.exponent.toNat / Nat.pow 2 (-x.exponent).toNat

/-- The number as an integer, if it is whole. A number with an exponent of 64 or more is too large
to be asked. -/
def whole? (x : Binary) : Option Int :=
  if x.significand = 0 then some 0
  else if 64 ≤ x.exponent then none
  else if x.significand.natAbs % Nat.pow 2 (-x.exponent).toNat = 0 then
    some (x.significand.sign * x.wholePart)
  else none

end Binary

end LabLease
