import LabLease.Proofs.Broker.Reachable
import LabLease.Proofs.Lease.Shown
import LabLease.Proofs.Ledger.Sweeping

/-!
# Past the deadline

An open lease whose deadline has come should stand in nobody's way: its exporter can be claimed, it
is shown as expired in listings and on its own, and a sweep records it as expired. All four hang on
`Lease.isDue`, which asks for an active lease. A pending lease is open too, though, and can come
from a store; past its deadline it blocks its exporter, is shown as it is, and is never swept. So
each of the four holds exactly for active leases (`Broker.Reachable.past_deadline_iff`).
-/

namespace LabLease

open LeaseStore

/-! ## One lease -/

/-- Past its deadline a lease is due exactly if it is active. -/
theorem Lease.isDue_iff_active {l : Lease} {now : Instant} (hexp : l.expiresAt ≤ now) :
    l.isDue now = true ↔ l.status = .active := by
  rw [isDue_iff]
  exact ⟨And.left, fun ha => ⟨ha, hexp⟩⟩

/-- Past its deadline an open lease is shown as expired exactly if it is active. -/
theorem Lease.observedAt_eq_expired_iff {l : Lease} {now : Instant} (ho : l.status.isOver = false)
    (hexp : l.expiresAt ≤ now) :
    l.observedAt now = { l with status := .expired } ↔ l.status = .active := by
  rw [← isDue_iff_active hexp]
  constructor
  · intro h
    refine Decidable.byContradiction fun hd => ?_
    rw [observedAt_of_not_isDue hd] at h
    rw [h] at ho
    cases ho
  · exact observedAt_of_isDue

namespace Ledger

variable {σ : Type} {L : Ledger σ} {l : Lease} {now : Instant}

/-- Among leases of a ledger, an open one past its deadline is shown as expired exactly if it is
active. -/
theorem Consistent.expired_mem_map_observedAt_iff (h : L.Consistent) {ls : List Lease}
    (hls : ls ⊆ L.leases) (hl : l ∈ ls) (ho : l.status.isOver = false)
    (hexp : l.expiresAt ≤ now) :
    { l with status := .expired } ∈ ls.map (·.observedAt now) ↔ l.status = .active := by
  rw [← Lease.observedAt_eq_expired_iff ho hexp]
  constructor
  · intro hmem
    obtain ⟨l', hl', heq⟩ := List.mem_map.1 hmem
    have hid : l'.id = l.id := by rw [← Lease.observedAt_id l' now, heq]
    obtain rfl := h.eq_of_id (hls hl') (hls hl) hid
    exact heq
  · intro heq
    exact List.mem_map.2 ⟨l, hl, heq⟩

/-- Past its deadline an open lease blocks its exporter exactly if it is not active. -/
theorem Consistent.blocked_iff_not_active (h : L.Consistent) (hl : l ∈ L.leases)
    (ho : l.status.isOver = false) (hexp : l.expiresAt ≤ now) :
    L.Blocked now l.exporter ↔ l.status ≠ .active := by
  rw [ne_eq, ← Lease.isDue_iff_active hexp, Bool.not_eq_true]
  constructor
  · rintro ⟨l', hl', he, ho', hd⟩
    obtain rfl := h.eq_of_exporter hl' hl he ho' ho
    exact hd
  · intro hd
    exact ⟨l, hl, rfl, ho, hd⟩

/-- A claim that may be granted is granted exactly if the exporter is not blocked. -/
theorem Consistent.claim_isOk_iff [LeaseStore σ] (h : L.Consistent) {b : Booking} {id : String}
    (hb : b.span ∈ L.bounds) (hw : Takes L.store (L.toWrite b now id)) :
    (∃ l', (L.claim b now id).1 = .ok l') ↔ ¬ L.Blocked now b.exporter := by
  have ho := claim_outcome h b now id
  constructor
  · rintro ⟨l', heq⟩ hbl
    obtain ⟨⟨holder, hheld⟩, -⟩ := ho.of_blocked h hb hbl
    rw [heq] at hheld
    cases hheld
  · intro hbl
    exact ⟨_, ho.ok_of_takes h hb hbl hw⟩

/-- What a ledger lists are its records. -/
theorem list_subset (L : Ledger σ) (s : Selector) (listed : List Exporter) :
    L.list s listed ⊆ L.leases := by
  unfold list
  split
  · exact List.Subset.refl _
  · exact List.filter_sublist.subset

end Ledger

/-! ## The broker -/

namespace Broker

variable {σ : Type} [LeaseStore σ] {B : Broker σ} {l : Lease} {now : Instant}

/-- Past the deadline of an open lease, its exporter can be claimed, the lease is listed as expired,
looked up as expired, and recorded as expired by a sweep, each exactly if it is active. Reference:
`Lease.is_due` and `Lease.is_live`, §4.4. -/
theorem Reachable.past_deadline_iff (h : B.Reachable) (hl : l ∈ B.ledger.leases)
    (ho : l.status.isOver = false) (hexp : l.expiresAt ≤ now) :
    (∀ (b : Booking) (id : String), b.exporter = l.exporter → b.span ∈ B.ledger.bounds →
      Takes B.ledger.store (B.ledger.toWrite b now id) →
      ((∃ l', (B.ledger.claim b now id).1 = .ok l') ↔ l.status = .active)) ∧
    (∀ (selector : Option String) (s : Selector) (listed : List Exporter),
      Selector.parseOptional selector = .ok s → l ∈ B.ledger.list s listed →
      ∃ ls, B.list selector listed now = .ok ls ∧
        ({ l with status := .expired } ∈ ls ↔ l.status = .active)) ∧
    (B.lease l.id now = .ok { l with status := .expired } ↔ l.status = .active) ∧
    (Takes B.ledger.store
        ((B.ledger.leases.filter (·.isDue now)).map ({ · with status := .expired })) →
      ({ l with status := .expired } ∈ (B.sweep now).2.ledger.leases ↔ l.status = .active)) := by
  have hc := h.consistent
  refine ⟨?_, ?_, ?_, ?_⟩
  · intro b id he hb hw
    rw [hc.claim_isOk_iff hb hw, he, hc.blocked_iff_not_active hl ho hexp, Decidable.not_not]
  · intro selector s listed hs hmem
    refine ⟨(B.ledger.list s listed).map (·.observedAt now), ?_, ?_⟩
    · rw [list, hs]
    · exact hc.expired_mem_map_observedAt_iff (B.ledger.list_subset s listed) hmem ho hexp
  · obtain ⟨pos, hpos⟩ := List.mem_iff_getElem?.1 hl
    rw [lease, Ledger.get, hc.record?_iff.2 ⟨hpos, rfl⟩, Except.ok.injEq]
    exact Lease.observedAt_eq_expired_iff ho hexp
  · intro hw
    have hsweep : (B.sweep now).2.ledger.leases = B.ledger.leases.map (·.observedAt now) :=
      hc.leases_sweep now hw
    rw [hsweep]
    exact hc.expired_mem_map_observedAt_iff (List.Subset.refl _) hl ho hexp

/-- The active lease of a board is out of the way after its minute. -/
theorem past_deadline_iff_active :
    let B := withLease minuteLease (MemoryStore.ofRecords [minuteLease])
    B.Reachable ∧ minuteLease ∈ B.ledger.leases ∧ minuteLease.status.isOver = false ∧
    minuteLease.expiresAt ≤ 60000 ∧
    (∃ l', (B.ledger.claim { exporter := "e1", span := .ofSecs 60 } 60000 "b").1 = .ok l') ∧
    (∃ ls, B.list none [] 60000 = .ok ls ∧ { minuteLease with status := .expired } ∈ ls) ∧
    B.lease "a" 60000 = .ok { minuteLease with status := .expired } ∧
    { minuteLease with status := .expired } ∈ (B.sweep 60000).2.ledger.leases := by
  intro B
  have reachable : B.Reachable := reachable_withLease rfl rfl
  have mem : minuteLease ∈ B.ledger.leases := List.mem_singleton.2 rfl
  obtain ⟨claimed, listed, found, swept⟩ :=
    reachable.past_deadline_iff mem rfl (by decide : minuteLease.expiresAt ≤ 60000)
  refine ⟨reachable, mem, rfl, by decide, ?_, ?_, found.2 rfl, ?_⟩
  · exact (claimed _ "b" rfl (by decide) (takes_memory _ _)).2 rfl
  · obtain ⟨ls, hls, hiff⟩ := listed none .any [] rfl mem
    exact ⟨ls, hls, hiff.2 rfl⟩
  · exact (swept (takes_memory _ _)).2 rfl

/-- The lease of a board that was never activated. -/
def pendingLease : Lease := { minuteLease with status := .pending }

/-- Past its deadline a pending lease still blocks its board, although it no longer holds it, and it
is shown and kept as it is. -/
theorem past_deadline_pending :
    let B := withLease pendingLease (MemoryStore.ofRecords [pendingLease])
    B.Reachable ∧ pendingLease ∈ B.ledger.leases ∧ pendingLease.status.isOver = false ∧
    pendingLease.expiresAt ≤ 60000 ∧
    (B.ledger.claim { exporter := "e1", span := .ofSecs 60 } 60000 "b").1 =
      .error (.exporterHeld "e1" "a") ∧
    B.ledger.holder? "e1" 60000 = none ∧
    B.list none [] 60000 = .ok [pendingLease] ∧
    B.lease "a" 60000 = .ok pendingLease ∧
    (B.sweep 60000).2.ledger.leases = [pendingLease] := by
  intro B
  have reachable : B.Reachable := reachable_withLease rfl rfl
  exact ⟨reachable, List.mem_singleton.2 rfl, rfl, by decide, rfl, rfl, rfl, rfl, rfl⟩

end Broker

end LabLease
