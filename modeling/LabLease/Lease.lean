import LabLease.Time

/-!
# Leases

A lease is a time-bound exclusive claim on one exporter. Its record carries a `Status`; whether
it counts at an instant is read off the status and the deadline together, by three predicates that
treat the four statuses differently:

* `Lease.isLive`: it is pending or active and its deadline has not come;
* `Lease.isDue`: it is active and its deadline has come, so it is ready to be recorded as expired;
* `Lease.observedAt`: how it is shown, a due lease being shown as expired whatever its record says.

`Lease.isLive_eq_false_of_isDue` keeps the first two apart, and `Lease.observedAt_of_isDue` and
`Lease.observedAt_of_not_isDue` say all there is to the third.
-/

namespace LabLease

/-- What the record of a lease says about it. Reference: `LeaseState`, §3. -/
inductive Status
  /-- Created, not yet bound to its exporter. -/
  | pending
  /-- Held and valid. -/
  | active
  /-- Given back by its holder. -/
  | released
  /-- Past its deadline. -/
  | expired
deriving DecidableEq, Repr, Inhabited

namespace Status

/-- A lease that is over is kept for listing and never binds its exporter again. Reference:
`LeaseState.is_terminal`. -/
def isOver : Status → Bool
  | .pending | .active => false
  | .released | .expired => true

/-- The name of a status, in records and in messages. Reference: `LeaseState.as_str`. -/
def text : Status → String
  | .pending => "Pending"
  | .active => "Active"
  | .released => "Released"
  | .expired => "Expired"

/-- The status with a given name. Reference: `LeaseState.parse`. -/
def ofText? (s : String) : Option Status :=
  if s = "Pending" then some .pending
  else if s = "Active" then some .active
  else if s = "Released" then some .released
  else if s = "Expired" then some .expired
  else none

@[simp] theorem ofText?_text (st : Status) : ofText? st.text = some st := by
  cases st <;> decide

/-- Each status has one name, and no other text names it. -/
theorem ofText?_eq_some_iff {s : String} {st : Status} : ofText? s = some st ↔ s = st.text := by
  constructor
  · intro h
    unfold ofText? at h
    repeat' split at h
    all_goals simp_all [text]
    all_goals subst h; rfl
  · rintro rfl
    exact ofText?_text st

end Status

/-- A time-bound exclusive claim on one exporter. Reference: `Lease`, §3. -/
structure Lease where
  /-- The identifier of the lease. -/
  id : String
  /-- A name given by its holder. -/
  name : Option String
  /-- The selector text it was asked for with, kept verbatim. -/
  selector : String
  /-- The identifier of the exporter it is bound to. -/
  exporter : String
  /-- What is recorded about it. -/
  status : Status
  /-- When it was granted. -/
  createdAt : Instant
  /-- The length asked for, in milliseconds. -/
  durationMs : UInt64
  /-- Its deadline: from this instant on it no longer holds the exporter. -/
  expiresAt : Instant
deriving DecidableEq, Repr, Inhabited

namespace Lease

/-- A pending lease from `now` for the whole milliseconds of `span`. Its deadline is that much
later, or the last instant if that comes first. Reference: `Lease.new`. -/
def draft (id exporter selector : String) (name : Option String) (span : Span) (now : Instant) :
    Lease where
  id := id
  name := name
  selector := selector
  exporter := exporter
  status := .pending
  createdAt := now
  durationMs := clamp64 span.millis
  expiresAt := now.plusMillis (clamp64 span.millis)

/-- The length of the lease. Reference: `Lease.duration`. -/
def span (l : Lease) : Span := .ofMillis l.durationMs.toNat

/-- The lease holds its exporter at `now`. Reference: `Lease.is_live`. -/
def isLive (l : Lease) (now : Instant) : Bool := !l.status.isOver && decide (now < l.expiresAt)

/-- The lease is active on record and its deadline has come. Reference: `Lease.is_due`. -/
def isDue (l : Lease) (now : Instant) : Bool :=
  decide (l.status = .active) && decide (l.expiresAt ≤ now)

/-- The lease as it is shown at `now`, whether or not its expiry has been recorded. Reference:
`Lease.observed_at`. -/
def observedAt (l : Lease) (now : Instant) : Lease :=
  if l.isDue now then { l with status := .expired } else l

theorem isDue_iff {l : Lease} {now : Instant} :
    l.isDue now = true ↔ l.status = .active ∧ l.expiresAt ≤ now := by
  simp [isDue]

theorem isLive_iff {l : Lease} {now : Instant} :
    l.isLive now = true ↔ l.status.isOver = false ∧ now < l.expiresAt := by
  simp [isLive]

/-- A lease that is due no longer holds its exporter. -/
theorem isLive_eq_false_of_isDue {l : Lease} {now : Instant} (h : l.isDue now = true) :
    l.isLive now = false := by
  have h' := (isDue_iff.1 h).2
  simp only [isLive, Bool.and_eq_false_iff, decide_eq_false_iff_not, UInt64.not_lt]
  exact .inr h'

theorem observedAt_of_isDue {l : Lease} {now : Instant} (h : l.isDue now = true) :
    l.observedAt now = { l with status := .expired } := by
  simp [observedAt, h]

theorem observedAt_of_not_isDue {l : Lease} {now : Instant} (h : ¬ l.isDue now = true) :
    l.observedAt now = l := by
  simp [observedAt, h]

end Lease

end LabLease
