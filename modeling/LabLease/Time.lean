/-!
# Lengths of time and instants

A `Span` is a length of time in whole nanoseconds, without a bound of its own: what limits it is
where it comes from. `Span.text` is its written form, the largest unit that fits followed by the
exact decimal, and `SpanRange` the inclusive range of lengths that a ledger grants.

Instants are counted in milliseconds since the epoch, in 64 bits. Two additions exist and differ
at the end of the range: a deadline stops at the last instant (`Instant.plusMillis`), while a
clock that is moved by hand goes round (`Instant.advance`).
-/

namespace LabLease

/-! ## Lengths of time -/

/-- A length of time. -/
structure Span where
  /-- The length in nanoseconds. -/
  nanos : Nat
deriving DecidableEq, Repr, Inhabited

namespace Span

instance : LE Span := ⟨fun a b => a.nanos ≤ b.nanos⟩
instance : LT Span := ⟨fun a b => a.nanos < b.nanos⟩
instance (a b : Span) : Decidable (a ≤ b) := inferInstanceAs (Decidable (a.nanos ≤ b.nanos))
instance (a b : Span) : Decidable (a < b) := inferInstanceAs (Decidable (a.nanos < b.nanos))

theorem le_def {a b : Span} : a ≤ b ↔ a.nanos ≤ b.nanos := Iff.rfl

/-- The span of that many seconds and nanoseconds. -/
def ofParts (secs nanos : Nat) : Span := ⟨secs * 1000000000 + nanos⟩

/-- The span of that many seconds. -/
def ofSecs (secs : Nat) : Span := ofParts secs 0

/-- The span of that many milliseconds. -/
def ofMillis (millis : Nat) : Span := ⟨millis * 1000000⟩

/-- The longest span a count of minutes can stand for, as seconds: larger counts mean this one. -/
def maxSecs : Nat := UInt64.size - 1

/-- The span of that many minutes, or the longest span if there is none. -/
def ofMinutes (minutes : UInt64) : Span := ofSecs (min (minutes.toNat * 60) maxSecs)

/-- The whole seconds of a span. -/
def secs (s : Span) : Nat := s.nanos / 1000000000

/-- The nanoseconds beyond the whole seconds of a span. -/
def subsecNanos (s : Span) : Nat := s.nanos % 1000000000

/-- The whole milliseconds of a span. -/
def millis (s : Span) : Nat := s.nanos / 1000000

/-- The whole minutes of a span. -/
def minutes (s : Span) : Nat := s.secs / 60

/-- The decimal fraction with `width` places whose digits are those of `n`: a point and the
digits up to the last that is not zero, or nothing if all are. -/
def fraction (width n : Nat) : String :=
  let digits := Nat.toDigits 10 n
  let places := List.replicate (width - digits.length) '0' ++ digits
  let kept := (places.reverse.dropWhile (· == '0')).reverse
  if kept.isEmpty then "" else String.ofList ('.' :: kept)

/-- A span in its largest unit that does not exceed it (nanoseconds if there is none), as an exact
decimal. -/
def text (s : Span) : String :=
  let n := s.nanos
  if n ≥ 1000000000 then Nat.repr (n / 1000000000) ++ fraction 9 (n % 1000000000) ++ "s"
  else if n ≥ 1000000 then Nat.repr (n / 1000000) ++ fraction 6 (n % 1000000) ++ "ms"
  else if n ≥ 1000 then Nat.repr (n / 1000) ++ fraction 3 (n % 1000) ++ "µs"
  else Nat.repr n ++ "ns"

end Span

/-- The inclusive range of lengths of time that may be granted. Reference: `DurationBounds`, §11. -/
structure SpanRange where
  /-- The shortest length allowed. -/
  min : Span
  /-- The longest length allowed. -/
  max : Span
deriving DecidableEq, Repr, Inhabited

namespace SpanRange

instance : Membership Span SpanRange := ⟨fun r s => r.min ≤ s ∧ s ≤ r.max⟩
instance (r : SpanRange) (s : Span) : Decidable (s ∈ r) :=
  inferInstanceAs (Decidable (r.min ≤ s ∧ s ≤ r.max))

theorem mem_def {r : SpanRange} {s : Span} : s ∈ r ↔ r.min ≤ s ∧ s ≤ r.max := Iff.rfl

end SpanRange

/-! ## Instants -/

/-- A point in time, in milliseconds since the epoch. -/
abbrev Instant := UInt64

/-- The 64-bit number closest to a natural number: itself, or the last one. -/
def clamp64 (n : Nat) : UInt64 := UInt64.ofNat (min n (UInt64.size - 1))

theorem toNat_clamp64 (n : Nat) : (clamp64 n).toNat = min n (UInt64.size - 1) := by
  rw [clamp64, UInt64.toNat_ofNat_of_lt']
  simp only [UInt64.size]
  omega

namespace Instant

/-- The instant a number of milliseconds later, or the last one if there is none. -/
def plusMillis (t : Instant) (millis : UInt64) : Instant := clamp64 (t.toNat + millis.toNat)

theorem toNat_plusMillis (t : Instant) (millis : UInt64) :
    (t.plusMillis millis).toNat = min (t.toNat + millis.toNat) (UInt64.size - 1) :=
  toNat_clamp64 _

/-- The reading of a hand-set clock after it was moved on by the whole milliseconds of a span;
readings go round at 64 bits. Reference: `ManualClock.advance`. -/
def advance (t : Instant) (step : Span) : Instant := t + UInt64.ofNat step.millis

end Instant

end LabLease
