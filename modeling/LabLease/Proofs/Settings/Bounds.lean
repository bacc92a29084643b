import LabLease.Settings

/-!
# Settings and the lengths that they allow

Settings that pass their check have a longest lease whose milliseconds fit in 64 bits
(`Settings.check_eq_ok_iff`). A minute has sixty thousand of those and sixty seconds, so the seconds
fit as well, and the bounds are the minutes of the settings without any loss (`Settings.bounds_eq`).
A count of minutes that is too large for a count of seconds stands for the longest span that there
is, and that is longer than any settings allow: so it is enough to compare minutes
(`Settings.ofMinutes_mem_bounds_iff`).
-/

namespace LabLease

@[simp] theorem Span.nanos_ofSecs (secs : Nat) : (Span.ofSecs secs).nanos = secs * 1000000000 := by
  rw [ofSecs, ofParts, Nat.add_zero]

/-- Minutes whose seconds can be counted are that many seconds. -/
theorem Span.ofMinutes_of_lt {minutes : UInt64} (h : minutes.toNat * 60 < UInt64.size) :
    Span.ofMinutes minutes = .ofSecs (minutes.toNat * 60) := by
  rw [ofMinutes, maxSecs, Nat.min_eq_left (by omega)]

namespace Settings

variable {s : Settings} {span : Span}

/-- Settings pass their check if no length or interval is zero, the shortest lease is not above the
longest, and the milliseconds of the longest fit in 64 bits. -/
theorem check_eq_ok_iff : s.check = .ok () ↔
    s.minMinutes.toNat ≠ 0 ∧ s.minMinutes.toNat ≤ s.maxMinutes.toNat ∧
      s.maxMinutes.toNat * 60000 < UInt64.size ∧ s.sweepSecs.toNat ≠ 0 := by
  have zero (n : UInt64) : n = 0 ↔ n.toNat = 0 := UInt64.toNat_inj.symm
  have flaws : s.check = .ok () ↔ s.flaw? = none := by
    rw [check]
    split <;> simp_all
  simp only [flaws, flaw?, zero, UInt64.lt_iff_toNat_lt]
  -- a flaw that is named contradicts one of the conditions, and without one all of them hold
  repeat' split
  all_goals
    simp only [reduceCtorEq, true_iff, false_iff]
    omega

/-- The bounds are the minutes of the settings, to the second. -/
theorem bounds_eq (hs : s.check = .ok ()) :
    s.bounds = ⟨.ofSecs (s.minMinutes.toNat * 60), .ofSecs (s.maxMinutes.toNat * 60)⟩ := by
  obtain ⟨-, hle, hlt, -⟩ := check_eq_ok_iff.1 hs
  rw [bounds, Span.ofMinutes_of_lt (by omega), Span.ofMinutes_of_lt (by omega)]

/-- A span may be granted if it is not shorter than the shortest lease and not longer than the
longest. -/
theorem mem_bounds_iff (hs : s.check = .ok ()) :
    span ∈ s.bounds ↔ s.minMinutes.toNat * 60 * 1000000000 ≤ span.nanos ∧
      span.nanos ≤ s.maxMinutes.toNat * 60 * 1000000000 := by
  rw [bounds_eq hs, SpanRange.mem_def, Span.le_def, Span.le_def, Span.nanos_ofSecs,
    Span.nanos_ofSecs]

/-- Minutes may be granted if the settings allow as many, whatever becomes of them in seconds. -/
theorem ofMinutes_mem_bounds_iff (hs : s.check = .ok ()) (minutes : UInt64) :
    Span.ofMinutes minutes ∈ s.bounds ↔ s.minMinutes.toNat ≤ minutes.toNat ∧
      minutes.toNat ≤ s.maxMinutes.toNat := by
  obtain ⟨-, hle, hlt, -⟩ := check_eq_ok_iff.1 hs
  rw [mem_bounds_iff hs, Span.ofMinutes, Span.nanos_ofSecs, Span.maxSecs]
  rw [UInt64.size] at hlt ⊢
  omega

end Settings

end LabLease
