import LabLease.Proofs.Ledger.Consistent

/-!
# What comes of an operation

For each operation of a consistent ledger, all its ways to end: the answer, the ledger afterwards,
and what had to hold for it. `claim_outcome`, `release_outcome` and `expire_outcome` are the only
places where the operations are opened; whatever else is said about them goes by cases on
`ClaimOutcome`, `ReleaseOutcome` and `ExpireOutcome`.

A claim that takes over from a due holder writes twice, first the holder's expiry and then the new
lease, and is the one operation that can fail between two writes (`ClaimOutcome.cutShort`).
-/

namespace LabLease.Ledger

variable {σ : Type} [LeaseStore σ] {L L' : Ledger σ} {l : Lease} {id : String} {pos : Nat}
  {status : Status} {b : Booking} {now : Instant}

/-! ## The two writes -/

/-- Closing an open record writes it and frees its exporter, or leaves the records as they are. -/
theorem transition_eq (h : L.Consistent) (hl : L.leases[pos]? = some l)
    (ho : l.status.isOver = false) (hs : status.isOver = true) :
    L.transition pos l status =
      match LeaseStore.save L.store { l with status := status } with
      | (.error fault, store) => (.error (.store fault), { L with store := store })
      | (.ok (), store) => (.ok (), L.closed pos l status store) := by
  have hh : L.holders.find? l.exporter = some l.id :=
    h.holders_iff.2 ⟨l, List.mem_of_getElem? hl, rfl, rfl, ho⟩
  rw [transition]
  simp only [hs, hh, beq_self_eq_true, Bool.and_true, if_true]
  rfl

/-- Granting a lease enters its record, or leaves the records as they are. -/
theorem grant_eq : L.grant b now id =
    match LeaseStore.save L.store (b.lease now id) with
    | (.error fault, store) => (.error (.store fault), { L with store := store })
    | (.ok (), store) => (.ok (b.lease now id), L.entered (b.lease now id) store) :=
  rfl

/-! ## Claims -/

/-- How a claim may end. -/
inductive ClaimOutcome (L : Ledger σ) (b : Booking) (now : Instant) (id : String) :
    Except Failure Lease → Ledger σ → Prop
  /-- The length asked for may not be granted. -/
  | outOfRange (hb : b.span ∉ L.bounds) :
      ClaimOutcome L b now id (.error (.spanOutOfRange b.span L.bounds)) L
  /-- A record that is not due holds the exporter. -/
  | held {pos : Nat} {l : Lease} (hb : b.span ∈ L.bounds) (hl : L.leases[pos]? = some l)
      (he : l.exporter = b.exporter) (ho : l.status.isOver = false) (hd : l.isDue now = false) :
      ClaimOutcome L b now id (.error (.exporterHeld b.exporter l.id)) L
  /-- The store refuses to record a due holder as expired. -/
  | stuck {pos : Nat} {l : Lease} {fault : StoreFault} {s : σ} (hb : b.span ∈ L.bounds)
      (hl : L.leases[pos]? = some l) (he : l.exporter = b.exporter) (hd : l.isDue now = true)
      (hs : LeaseStore.save L.store { l with status := .expired } = (.error fault, s)) :
      ClaimOutcome L b now id (.error (.store fault)) { L with store := s }
  /-- A due holder is recorded as expired, and then the store refuses the new lease. -/
  | cutShort {pos : Nat} {l : Lease} {fault : StoreFault} {s s' : σ} (hb : b.span ∈ L.bounds)
      (hl : L.leases[pos]? = some l) (he : l.exporter = b.exporter) (hd : l.isDue now = true)
      (hs : LeaseStore.save L.store { l with status := .expired } = (.ok (), s))
      (hs' : LeaseStore.save s (b.lease now id) = (.error fault, s')) :
      ClaimOutcome L b now id (.error (.store fault)) (L.closed pos l .expired s')
  /-- A due holder is recorded as expired, and the new lease takes its place. -/
  | takeover {pos : Nat} {l : Lease} {s s' : σ} (hb : b.span ∈ L.bounds)
      (hl : L.leases[pos]? = some l) (he : l.exporter = b.exporter) (hd : l.isDue now = true)
      (hs : LeaseStore.save L.store { l with status := .expired } = (.ok (), s))
      (hs' : LeaseStore.save s (b.lease now id) = (.ok (), s')) :
      ClaimOutcome L b now id (.ok (b.lease now id))
        ((L.closed pos l .expired s).entered (b.lease now id) s')
  /-- The exporter is free, and the store refuses the new lease. -/
  | refused {fault : StoreFault} {s : σ} (hb : b.span ∈ L.bounds)
      (hf : L.holders.find? b.exporter = none)
      (hs : LeaseStore.save L.store (b.lease now id) = (.error fault, s)) :
      ClaimOutcome L b now id (.error (.store fault)) { L with store := s }
  /-- The exporter is free, and the new lease holds it from now on. -/
  | granted {s : σ} (hb : b.span ∈ L.bounds) (hf : L.holders.find? b.exporter = none)
      (hs : LeaseStore.save L.store (b.lease now id) = (.ok (), s)) :
      ClaimOutcome L b now id (.ok (b.lease now id)) (L.entered (b.lease now id) s)

/-- A due record is not over. -/
theorem isOver_of_isDue (hd : l.isDue now = true) : l.status.isOver = false := by
  rw [(Lease.isDue_iff.1 hd).1]
  rfl

/-- A claim ends in one of the listed ways. -/
theorem claim_outcome (h : L.Consistent) (b : Booking) (now : Instant) (id : String) :
    ClaimOutcome L b now id (L.claim b now id).1 (L.claim b now id).2 := by
  rw [claim, SpanRange.check]
  by_cases hb : b.span ∈ L.bounds
  · rw [if_pos hb]
    cases hf : L.holders.find? b.exporter with
    | none =>
      simp only [grant_eq]
      rcases hs : LeaseStore.save L.store (b.lease now id) with ⟨fault | _, s⟩
      · exact .refused hb hf hs
      · exact .granted hb hf hs
    | some holder =>
      obtain ⟨pos, l, hr, hl, rfl, he, ho⟩ := h.record?_holder hf
      simp only [hr]
      cases hd : l.isDue now with
      | false => exact .held hb hl he ho hd
      | true =>
        simp only [if_true, transition_eq h hl ho (rfl : Status.expired.isOver = true)]
        rcases hs : LeaseStore.save L.store { l with status := .expired } with ⟨fault | _, s⟩
        · exact .stuck hb hl he hd hs
        · simp only [grant_eq]
          have hst : (L.closed pos l .expired s).store = s := rfl
          rw [hst]
          rcases hs' : LeaseStore.save s (b.lease now id) with ⟨fault | _, s'⟩
          · exact .cutShort hb hl he hd hs hs'
          · exact .takeover hb hl he hd hs hs'
  · rw [if_neg hb]
    exact .outOfRange hb

/-! ## Releases -/

/-- How a release may end. -/
inductive ReleaseOutcome (L : Ledger σ) (id : String) (now : Instant) :
    Except Failure Lease → Ledger σ → Prop
  /-- No record has the identifier. -/
  | unknown (hid : ∀ l ∈ L.leases, l.id ≠ id) :
      ReleaseOutcome L id now (.error (.unknownLease id)) L
  /-- The lease is over. -/
  | ended {pos : Nat} {l : Lease} (hl : L.leases[pos]? = some l) (hid : l.id = id)
      (ho : l.status.isOver = true) :
      ReleaseOutcome L id now (.error (.alreadyOver id l.status)) L
  /-- The store refuses the write. -/
  | refused {pos : Nat} {l : Lease} {fault : StoreFault} {s : σ}
      (hl : L.leases[pos]? = some l) (hid : l.id = id) (ho : l.status.isOver = false)
      (hs : LeaseStore.save L.store
        { l with status := if l.isDue now then .expired else .released } = (.error fault, s)) :
      ReleaseOutcome L id now (.error (.store fault)) { L with store := s }
  /-- The lease is due: it is recorded as expired. -/
  | late {pos : Nat} {l : Lease} {s : σ} (hl : L.leases[pos]? = some l) (hid : l.id = id)
      (hd : l.isDue now = true)
      (hs : LeaseStore.save L.store { l with status := .expired } = (.ok (), s)) :
      ReleaseOutcome L id now (.error (.alreadyOver id .expired)) (L.closed pos l .expired s)
  /-- The lease is given back. -/
  | released {pos : Nat} {l : Lease} {s : σ} (hl : L.leases[pos]? = some l) (hid : l.id = id)
      (ho : l.status.isOver = false) (hd : l.isDue now = false)
      (hs : LeaseStore.save L.store { l with status := .released } = (.ok (), s)) :
      ReleaseOutcome L id now (.ok { l with status := .released }) (L.closed pos l .released s)

/-- A release ends in one of the listed ways. -/
theorem release_outcome (h : L.Consistent) (id : String) (now : Instant) :
    ReleaseOutcome L id now (L.release id now).1 (L.release id now).2 := by
  rw [release]
  cases hr : L.record? id with
  | none => exact .unknown (h.record?_eq_none_iff.1 hr)
  | some r =>
    obtain ⟨pos, l⟩ := r
    obtain ⟨hl, hid⟩ := h.record?_iff.1 hr
    cases ho : l.status.isOver with
    | true =>
      simp only [ho, if_true]
      exact .ended hl hid ho
    | false =>
      cases hd : l.isDue now with
      | true =>
        simp only [ho, hd, Bool.false_eq_true, if_false, if_true,
          transition_eq h hl ho (rfl : Status.expired.isOver = true)]
        rcases hs : LeaseStore.save L.store { l with status := .expired } with ⟨fault | _, s⟩
        · exact .refused hl hid ho (by rw [hd]; exact hs)
        · exact .late hl hid hd hs
      | false =>
        simp only [ho, hd, Bool.false_eq_true, if_false,
          transition_eq h hl ho (rfl : Status.released.isOver = true)]
        rcases hs : LeaseStore.save L.store { l with status := .released } with ⟨fault | _, s⟩
        · exact .refused hl hid ho (by rw [hd]; exact hs)
        · exact .released hl hid ho hd hs

/-! ## Expiry -/

/-- How recording one lease as expired may end. -/
inductive ExpireOutcome (L : Ledger σ) (id : String) : Except Failure Bool → Ledger σ → Prop
  /-- No record has the identifier. -/
  | unknown (hid : ∀ l ∈ L.leases, l.id ≠ id) : ExpireOutcome L id (.error (.unknownLease id)) L
  /-- The lease is over already. -/
  | ended {pos : Nat} {l : Lease} (hl : L.leases[pos]? = some l) (hid : l.id = id)
      (ho : l.status.isOver = true) : ExpireOutcome L id (.ok false) L
  /-- The store refuses the write. -/
  | refused {pos : Nat} {l : Lease} {fault : StoreFault} {s : σ}
      (hl : L.leases[pos]? = some l) (hid : l.id = id) (ho : l.status.isOver = false)
      (hs : LeaseStore.save L.store { l with status := .expired } = (.error fault, s)) :
      ExpireOutcome L id (.error (.store fault)) { L with store := s }
  /-- The lease is recorded as expired. -/
  | expired {pos : Nat} {l : Lease} {s : σ} (hl : L.leases[pos]? = some l) (hid : l.id = id)
      (ho : l.status.isOver = false)
      (hs : LeaseStore.save L.store { l with status := .expired } = (.ok (), s)) :
      ExpireOutcome L id (.ok true) (L.closed pos l .expired s)

/-- Recording a lease as expired ends in one of the listed ways. -/
theorem expire_outcome (h : L.Consistent) (id : String) :
    ExpireOutcome L id (L.expire id).1 (L.expire id).2 := by
  rw [expire]
  cases hr : L.record? id with
  | none => exact .unknown (h.record?_eq_none_iff.1 hr)
  | some r =>
    obtain ⟨pos, l⟩ := r
    obtain ⟨hl, hid⟩ := h.record?_iff.1 hr
    cases ho : l.status.isOver with
    | true =>
      simp only [ho, if_true]
      exact .ended hl hid ho
    | false =>
      simp only [ho, Bool.false_eq_true, if_false,
        transition_eq h hl ho (rfl : Status.expired.isOver = true)]
      rcases hs : LeaseStore.save L.store { l with status := .expired } with ⟨fault | _, s⟩
      · exact .refused hl hid ho hs
      · exact .expired hl hid ho hs

end LabLease.Ledger
