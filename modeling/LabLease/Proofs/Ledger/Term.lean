import LabLease.Proofs.Ledger.Claim
import LabLease.Proofs.Ledger.Run
import LabLease.Proofs.Settings.Bounds

/-!
# The term of a lease

A lease begins when it is granted, lasts as many whole milliseconds as its booking asks for, and
ends at its deadline. On the way from a booking to a record nothing is lost but the fraction of a
millisecond (`TermSpec`): under settings that pass their check every length that may be granted fits
in 64 bits of milliseconds (`Booking.toNat_durationMs`), and only the deadline may meet the end of
the range of instants, where it stops. As no length is zero, a new lease always holds its exporter
at first, unless it begins at the last instant.
-/

namespace LabLease

open LeaseStore

variable {s : Settings} {b : Booking} {span : Span} {now : Instant} {id : String} {l : Lease}

/-- What should be recorded of the term of a lease that is granted at `now` for `span`. -/
structure TermSpec (s : Settings) (span : Span) (now : Instant) (l : Lease) : Prop where
  /-- It begins at once. -/
  createdAt : l.createdAt = now
  /-- Its length is `span`, rounded down to whole milliseconds. -/
  durationMs : l.durationMs.toNat * 1000000 ≤ span.nanos ∧
    span.nanos < (l.durationMs.toNat + 1) * 1000000
  /-- That is within the minutes of the settings. -/
  minutes : 60000 * s.minMinutes.toNat ≤ l.durationMs.toNat ∧
    l.durationMs.toNat ≤ 60000 * s.maxMinutes.toNat
  /-- Its deadline comes so many milliseconds later. -/
  expiresAt_of_lt (h : now.toNat + l.durationMs.toNat < UInt64.size) :
    l.expiresAt.toNat = now.toNat + l.durationMs.toNat
  /-- Or it is the last instant, if there is none so late. -/
  expiresAt_of_le (h : UInt64.size ≤ now.toNat + l.durationMs.toNat) :
    l.expiresAt.toNat = UInt64.size - 1
  /-- It holds its exporter at first, unless it begins at the last instant. -/
  isLive_iff : l.isLive now = true ↔ now.toNat < UInt64.size - 1
  /-- Only then it is due at once. -/
  isDue_iff : l.isDue now = true ↔ now.toNat = UInt64.size - 1

/-- The milliseconds of a length that may be granted fit in 64 bits. -/
theorem Booking.toNat_durationMs (hs : s.check = .ok ()) (hb : b.span ∈ s.bounds) (now : Instant)
    (id : String) : (b.lease now id).durationMs.toNat = b.span.nanos / 1000000 := by
  obtain ⟨-, -, hlt, -⟩ := Settings.check_eq_ok_iff.1 hs
  obtain ⟨-, hmax⟩ := (Settings.mem_bounds_iff hs).1 hb
  have duration : (b.lease now id).durationMs = clamp64 b.span.millis := rfl
  rw [duration, toNat_clamp64, Span.millis]
  omega

/-- The deadline of a lease that is granted. -/
theorem Booking.toNat_expiresAt (b : Booking) (now : Instant) (id : String) :
    (b.lease now id).expiresAt.toNat =
      min (now.toNat + (b.lease now id).durationMs.toNat) (UInt64.size - 1) :=
  Instant.toNat_plusMillis _ _

/-- A lease with an allowed length has the term that it should have. -/
theorem Booking.term_lease (hs : s.check = .ok ()) (hb : b.span ∈ s.bounds) (now : Instant)
    (id : String) : TermSpec s b.span now (b.lease now id) := by
  obtain ⟨hmin, hle, -, -⟩ := Settings.check_eq_ok_iff.1 hs
  obtain ⟨hshortest, hlongest⟩ := (Settings.mem_bounds_iff hs).1 hb
  have duration := toNat_durationMs hs hb now id
  have deadline := b.toNat_expiresAt now id
  have last := now.toNat_lt_size
  have rounded := Nat.div_add_mod b.span.nanos 1000000
  have fraction := Nat.mod_lt b.span.nanos (show 0 < 1000000 by decide)
  -- a minute at least, so the deadline can only be now at the end of all instants
  have long : 60000 ≤ (b.lease now id).durationMs.toNat := by omega
  exact {
    createdAt := rfl
    durationMs := by omega
    minutes := by omega
    expiresAt_of_lt := by omega
    expiresAt_of_le := by omega
    isLive_iff := by
      have isOver : (b.lease now id).status.isOver = false := rfl
      rw [Lease.isLive_iff, and_iff_right isOver, UInt64.lt_iff_toNat_lt]
      omega
    isDue_iff := by
      rw [Lease.isDue_iff, and_iff_right (lease_status b now id), UInt64.le_iff_toNat_le]
      omega }

variable {σ : Type} [LeaseStore σ] {L : Ledger σ}

/-- How long leases should be under the settings. -/
structure LengthSpec (s : Settings) (L : Ledger σ) (b : Booking) (now : Instant) (id : String) :
    Prop where
  /-- The shortest and the longest lease are the minutes of the settings, in seconds. -/
  bounds : s.bounds = ⟨.ofSecs (s.minMinutes.toNat * 60), .ofSecs (s.maxMinutes.toNat * 60)⟩
  /-- A length within them is granted on an exporter that is not blocked, if the store takes what
  there is to write. -/
  granted (hb : b.span ∈ L.bounds) (hbl : ¬ L.Blocked now b.exporter)
    (hw : Takes L.store (L.toWrite b now id)) : ∃ l, (L.claim b now id).1 = .ok l
  /-- A lease that is granted is recorded, and has the term that was asked for. -/
  term {l : Lease} (hl : (L.claim b now id).1 = .ok l) :
    b.span ∈ L.bounds ∧ l ∈ (L.claim b now id).2.leases ∧ TermSpec s b.span now l

/-- Under settings that pass their check the bounds are the minutes of the settings, exactly; every
length within them is granted, and the lease lasts for the whole milliseconds of it or up to the
last instant. Reference: `BrokerConfig.bounds` and `Lease.new`, §11. -/
theorem Ledger.Reachable.lengths_meet (h : L.Reachable) (hs : s.check = .ok ())
    (hL : L.bounds = s.bounds) (b : Booking) (now : Instant) (id : String) :
    LengthSpec s L b now id where
  bounds := Settings.bounds_eq hs
  granted hb hbl hw := ⟨_, (claim_outcome h.consistent b now id).ok_of_takes h.consistent hb hbl hw⟩
  term {l} hl := by
    have ho := claim_outcome h.consistent b now id
    rw [hl] at ho
    obtain ⟨hb, hmem⟩ := ho.recorded_of_ok
    obtain rfl := ho.eq_lease_of_ok
    exact ⟨hb, hmem, Booking.term_lease hs (hL ▸ hb) now id⟩

/-- Settings with the longest lease that passes the check. -/
def widestSettings : Settings := { maxMinutes := 307445734561825 }

/-- A ledger without records under these settings. -/
def widestLedger : Ledger MemoryStore := .blank widestSettings.bounds .empty

/-- A booking for a nanosecond less than the longest lease. -/
def longBooking : Booking :=
  { exporter := "e1", span := .ofParts (307445734561825 * 60 - 1) 999999999 }

/-- One instant before the last, a lease of almost the longest length is granted. Its milliseconds
are counted in full, its deadline is the last instant, and until then it holds its exporter. -/
theorem lengths_meet_longest :
    widestSettings.check = .ok () ∧ widestLedger.Reachable ∧
    widestLedger.bounds = widestSettings.bounds ∧ longBooking.span ∈ widestLedger.bounds ∧
    ∃ l, (widestLedger.claim longBooking 18446744073709551614 "a").1 = .ok l ∧
      l.durationMs = 18446744073709499999 ∧ l.expiresAt = 18446744073709551615 ∧
      l.isLive 18446744073709551614 = true ∧ l.isDue 18446744073709551614 = false := by
  have checked : widestSettings.check = .ok () := by decide
  have reachable : widestLedger.Reachable := ⟨_, [], .blank rfl, .nil _⟩
  have allowed : longBooking.span ∈ widestLedger.bounds := by decide
  have free : ¬ widestLedger.Blocked 18446744073709551614 longBooking.exporter := by decide
  have meets := reachable.lengths_meet checked rfl longBooking 18446744073709551614 "a"
  obtain ⟨l, hl⟩ := meets.granted allowed free (takes_memory _ _)
  obtain ⟨-, -, term⟩ := meets.term hl
  have rounded := term.durationMs
  have nanos : longBooking.span.nanos = 18446744073709499999999999 := by decide
  have duration : l.durationMs.toNat = 18446744073709499999 := by omega
  have now : (18446744073709551614 : UInt64).toNat = 18446744073709551614 := by decide
  have deadline := term.expiresAt_of_le (by rw [UInt64.size]; omega)
  have notDue : ¬ l.isDue 18446744073709551614 = true := by
    rw [term.isDue_iff]
    decide
  exact ⟨checked, reachable, rfl, allowed, l, hl, UInt64.toNat_inj.1 duration,
    UInt64.toNat_inj.1 deadline, term.isLive_iff.2 (by decide), Bool.eq_false_iff.2 notDue⟩

end LabLease
