import LabLease.Lease

/-!
# Leases as they are shown

How a lease is shown at an instant differs from its record in status alone, and only where the lease
is due. Looking at what is shown is looking at the record: a lease that is shown is never due, holds
its exporter if the record says so, and is shown later as the record will be
(`Lease.observedAt_observedAt`). A lease that is due may as well be recorded as expired
(`Lease.observedAt_expired`).
-/

namespace LabLease.Lease

variable {l : Lease} {now later : Instant}

@[simp] theorem observedAt_id (l : Lease) (now : Instant) : (l.observedAt now).id = l.id := by
  unfold observedAt
  split <;> rfl

@[simp] theorem observedAt_exporter (l : Lease) (now : Instant) :
    (l.observedAt now).exporter = l.exporter := by
  unfold observedAt
  split <;> rfl

/-- A lease that is over is not due. -/
theorem not_isDue_of_isOver (ho : l.status.isOver = true) : ¬ l.isDue now = true := by
  intro hd
  rw [(isDue_iff.1 hd).1] at ho
  cases ho

/-- A lease that is over is shown as it is. -/
theorem observedAt_of_isOver (ho : l.status.isOver = true) : l.observedAt now = l :=
  observedAt_of_not_isDue (not_isDue_of_isOver ho)

/-- What is due stays due. -/
theorem isDue_of_le (hle : now ≤ later) (hd : l.isDue now = true) : l.isDue later = true := by
  obtain ⟨hs, hexp⟩ := isDue_iff.1 hd
  exact isDue_iff.2 ⟨hs, UInt64.le_trans hexp hle⟩

/-- A lease that is due is shown the same if it has been recorded as expired. -/
theorem observedAt_expired (hle : now ≤ later) (hd : l.isDue now = true) :
    ({ l with status := .expired } : Lease).observedAt later = l.observedAt later := by
  rw [observedAt_of_isOver rfl, observedAt_of_isDue (isDue_of_le hle hd)]

/-- What is shown of a lease is later shown as the lease is. -/
theorem observedAt_observedAt (hle : now ≤ later) :
    (l.observedAt now).observedAt later = l.observedAt later := by
  by_cases hd : l.isDue now = true
  · rw [observedAt_of_isDue hd, observedAt_expired hle hd]
  · rw [observedAt_of_not_isDue hd]

/-- A lease is shown as over if it is over or due. -/
theorem isOver_observedAt :
    (l.observedAt now).status.isOver = (l.status.isOver || l.isDue now) := by
  by_cases hd : l.isDue now = true
  · simp [observedAt_of_isDue hd, hd, Status.isOver]
  · simp [observedAt_of_not_isDue hd, hd]

/-- A lease holds its exporter as it is shown. -/
theorem isLive_observedAt : (l.observedAt now).isLive now = l.isLive now := by
  by_cases hd : l.isDue now = true
  · rw [isLive_eq_false_of_isDue hd, observedAt_of_isDue hd]
    rfl
  · rw [observedAt_of_not_isDue hd]

/-- A lease that holds its exporter is shown as it is. -/
theorem observedAt_of_isLive (h : l.isLive now = true) : l.observedAt now = l := by
  refine observedAt_of_not_isDue fun hd => ?_
  rw [isLive_eq_false_of_isDue hd] at h
  cases h

end LabLease.Lease
