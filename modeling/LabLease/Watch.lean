import LabLease.Ledger

/-!
# Sweeping in the background

A watch sweeps a ledger at a steady pace for as long as it runs: at once when it starts, and then
once every period. Its time is counted in whole milliseconds from its start and passes only while
its owner waits (`Watch.pass`); a sweep that falls exactly on the end of a wait is left for the
next one. `Watch.sweepsBefore` counts the sweeps that lie before a point in time
(`Watch.lt_sweepsBefore_iff`), so a wait makes as many sweeps as lie between its two ends, each at
the clock reading that is then in force. A watch that was stopped lets time pass and sweeps no more.
-/

namespace LabLease

/-- A background sweep. Reference: `ExpirySweeper`, §4.4. -/
structure Watch where
  /-- The time from one sweep to the next. -/
  interval : Span
  /-- The milliseconds since the start. -/
  elapsed : Nat := 0
  /-- Whether it still sweeps. -/
  running : Bool := true
  /-- There is time between two sweeps. -/
  long : Span.ofMillis 1 ≤ interval
deriving DecidableEq, Repr

namespace Watch

/-- A watch with an interval, which is raised to a millisecond if it is shorter. Reference:
`ExpirySweeper.new`. -/
def start (interval : Span) : Watch where
  interval := if Span.ofMillis 1 ≤ interval then interval else .ofMillis 1
  long := by
    split
    · assumption
    · exact Nat.le_refl _

/-- The whole milliseconds from one sweep to the next. Timers count no others: what an interval has
beyond them is not seen in the times of the sweeps here. -/
def period (w : Watch) : Nat := w.interval.millis

theorem period_pos (w : Watch) : 0 < w.period := Nat.div_pos w.long (by decide)

/-- How many of the sweeps at 0, at the period, at twice the period, and so on lie before a point in
time. -/
def sweepsBefore (period time : Nat) : Nat := (time + period - 1) / period

/-- The sweeps before a point in time are those at an earlier multiple of the period. -/
theorem lt_sweepsBefore_iff {period : Nat} (h : 0 < period) {time k : Nat} :
    k < sweepsBefore period time ↔ k * period < time := by
  rw [sweepsBefore, Nat.lt_iff_add_one_le, Nat.le_div_iff_mul_le h, Nat.succ_mul]
  omega

/-- How many sweeps a wait makes. -/
def sweepsDuring (w : Watch) (millis : Nat) : Nat :=
  if w.running then sweepsBefore w.period (w.elapsed + millis) - sweepsBefore w.period w.elapsed
  else 0

/-- Stops the watch. Reference: `SweeperHandle.shutdown`. -/
def stop (w : Watch) : Watch := { w with running := false }

variable {σ : Type} [LeaseStore σ]

/-- A number of sweeps at one clock reading. -/
def sweepTimes (now : Instant) : Nat → Ledger σ → Ledger σ
  | 0, L => L
  | n + 1, L => sweepTimes now n (L.sweep now).2

/-- Waits for some milliseconds while the clock reads `now`. -/
def pass (w : Watch) (millis : Nat) (now : Instant) (L : Ledger σ) : Watch × Ledger σ :=
  ({ w with elapsed := w.elapsed + millis }, sweepTimes now (w.sweepsDuring millis) L)

end Watch

end LabLease
