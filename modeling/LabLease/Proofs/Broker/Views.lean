import LabLease.Proofs.Broker.Bookings
import LabLease.Proofs.Broker.Reports

/-!
# All views agree

Which lease holds which exporter is told in five places, each in its own way: the listing of all
leases shows the records, the listing of exporters goes by the table of holders, a claim by the same
table and the deadline, the summary counts the records that hold, and the lookup goes by the index.
`Service.Agrees` says that all of them tell what the listing of all leases tells. They do as long as
no record is pending (`Ledger.Run.views_agree`).

A pending lease is open, but it is never due and never shown as active, so that with it they would
not. No operation enters one (`Ledger.Writes.nonePending`).
-/

namespace LabLease

open LeaseStore Service

/-! ## One lease -/

namespace Lease

variable {l : Lease} {now : Instant}

/-- A lease is shown as active if it is recorded so and its deadline has not come. -/
theorem status_observedAt_eq_active_iff :
    (l.observedAt now).status = .active ↔ l.status = .active ∧ l.isDue now = false := by
  by_cases hd : l.isDue now = true
  · simp [observedAt_of_isDue hd, hd]
  · simp [observedAt_of_not_isDue hd, hd]

/-- What is shown as pending is recorded so. -/
theorem status_eq_pending_of_observedAt (h : (l.observedAt now).status = .pending) :
    l.status = .pending := by
  by_cases hd : l.isDue now = true
  · rw [observedAt_of_isDue hd] at h
    cases h
  · rwa [observedAt_of_not_isDue hd] at h

/-- A lease that is not pending is open only if it is active. -/
theorem status_eq_active_iff (hp : l.status ≠ .pending) :
    l.status = .active ↔ l.status.isOver = false := by
  rw [Status.isOver_eq_false_iff, or_iff_right hp]

/-- A lease that is not pending holds its exporter exactly if it is shown as active. -/
theorem isLive_iff_shown_active (hp : l.status ≠ .pending) :
    l.isLive now = true ↔ (l.observedAt now).status = .active := by
  rw [status_observedAt_eq_active_iff, isLive_iff, ← status_eq_active_iff hp]
  refine and_congr_right fun ha => ?_
  simp [isDue, ha]

end Lease

/-! ## No record is pending -/

namespace Ledger

variable {σ : Type} {L L' : Ledger σ} {l : Lease} {now : Instant} {holder : String}

/-- No record is pending. -/
def NonePending (L : Ledger σ) : Prop := ∀ l ∈ L.leases, l.status ≠ .pending

/-- Where no record is pending, what is shown as active are the records that hold an exporter. -/
theorem NonePending.mem_shown_active_iff (hp : L.NonePending) :
    (l ∈ L.leases.map (·.observedAt now) ∧ l.status = .active) ↔
      l ∈ L.leases ∧ l.isLive now = true := by
  constructor
  · rintro ⟨hl, ha⟩
    obtain ⟨l₀, hl₀, rfl⟩ := List.mem_map.1 hl
    have hlive := (Lease.isLive_iff_shown_active (hp l₀ hl₀)).2 ha
    rw [Lease.observedAt_of_isLive hlive]
    exact ⟨hl₀, hlive⟩
  · rintro ⟨hl, hlive⟩
    have ha := (Lease.isLive_iff_shown_active (hp l hl)).1 hlive
    rw [Lease.observedAt_of_isLive hlive] at ha
    exact ⟨List.mem_map.2 ⟨l, hl, Lease.observedAt_of_isLive hlive⟩, ha⟩

/-- Where no record is pending, a record blocks its exporter exactly if it is shown as active. -/
theorem NonePending.blocking_iff_shown_active (hp : L.NonePending) {exporter : String} :
    (∃ l ∈ L.leases, l.id = holder ∧ l.exporter = exporter ∧ l.status.isOver = false ∧
      l.isDue now = false) ↔
    ∃ l ∈ L.leases.map (·.observedAt now), l.id = holder ∧ l.exporter = exporter ∧
      l.status = .active := by
  have shown {l : Lease} (hl : l ∈ L.leases) :
      (l.observedAt now).status = .active ↔ l.status.isOver = false ∧ l.isDue now = false := by
    rw [Lease.status_observedAt_eq_active_iff, Lease.status_eq_active_iff (hp l hl)]
  constructor
  · rintro ⟨l, hl, hid, he, hblock⟩
    exact ⟨l.observedAt now, List.mem_map_of_mem hl, (l.observedAt_id now).trans hid,
      (l.observedAt_exporter now).trans he, (shown hl).2 hblock⟩
  · rintro ⟨l', hl', hid, he, ha⟩
    obtain ⟨l, hl, rfl⟩ := List.mem_map.1 hl'
    rw [Lease.observedAt_id] at hid
    rw [Lease.observedAt_exporter] at he
    exact ⟨l, hl, hid, he, (shown hl).1 ha⟩

variable [LeaseStore σ]

/-- One write enters no pending record. -/
theorem Write.nonePending (hp : L.NonePending) (hw : Write L L') : L'.NonePending := by
  intro l hl
  cases hw with
  | refused => exact hp l hl
  | closed _ _ hs =>
    obtain hl | rfl := List.mem_or_eq_of_mem_set hl
    · exact hp l hl
    · rintro rfl
      cases hs
  | entered _ ha =>
    obtain hl | hl := List.mem_append.1 hl
    · exact hp l hl
    · rw [List.mem_singleton.1 hl, ha]
      exact nofun

/-- Nor do several. -/
theorem Writes.nonePending (hp : L.NonePending) (hw : Writes L L') : L'.NonePending := by
  induction hw with
  | refl => exact hp
  | tail _ hw ih => exact hw.nonePending ih

end Ledger

/-! ## The views -/

variable {σ : Type} {B : Broker σ} {now : Instant} {ls : List Lease} {l : Lease} {id : String}

/-- A lookup gives what a listing of all leases has under the identifier. -/
theorem Broker.lease_eq_ok_iff (h : B.ledger.Consistent) :
    B.lease id now = .ok l ↔ l ∈ B.ledger.leases.map (·.observedAt now) ∧ l.id = id := by
  rw [lease, h.get_eq_records]
  constructor
  · intro hok
    cases hf : B.ledger.leases.find? (·.id == id) with
    | none =>
      rw [hf] at hok
      cases hok
    | some l₀ =>
      rw [hf] at hok
      cases hok
      have hid : l₀.id = id := by simpa using List.find?_some hf
      exact ⟨List.mem_map_of_mem (List.mem_of_find?_eq_some hf), (l₀.observedAt_id now).trans hid⟩
  · rintro ⟨hl, hid⟩
    obtain ⟨l₀, hl₀, rfl⟩ := List.mem_map.1 hl
    rw [Lease.observedAt_id] at hid
    rw [h.find?_id_eq_some hl₀ hid]

/-- A lookup finds nothing if a listing of all leases has nothing under the identifier. -/
theorem Broker.lease_eq_unknown_iff (h : B.ledger.Consistent) :
    B.lease id now = .error (.unknownLease id) ↔
      ∀ l ∈ B.ledger.leases.map (·.observedAt now), l.id ≠ id := by
  constructor
  · intro hno l hl hid
    rw [(lease_eq_ok_iff h).2 ⟨hl, hid⟩] at hno
    cases hno
  · intro hno
    have absent : B.ledger.record? id = none := by
      refine h.record?_eq_none_iff.2 fun l hl hid => ?_
      exact hno _ (List.mem_map_of_mem hl) ((l.observedAt_id now).trans hid)
    rw [lease, Ledger.get, absent]

variable [LeaseStore σ] {S : Service σ}

/-- What a service tells at an instant is what the list of leases tells, and nothing is pending. -/
structure Service.Agrees (S : Service σ) (now : Instant) (ls : List Lease) : Prop where
  nonePending : S.broker.ledger.NonePending
  /-- No answer says that a lease is pending. -/
  notReported {e : Event} {id : String} (ha : S.Admits e) : ¬ (S.put e).1.Reports id .pending
  /-- The list is the listing of all leases. -/
  listed : (S.put ⟨now, .list none⟩).1 = .leases (.ok ls)
  /-- A listing of exporters has those that satisfy its selector, and attaches to each the lease
  that is active on it. -/
  attached {q : ExporterQuery} {s : Selector} (hq : q.includeLeases = true)
    (hs : Selector.parseOptional q.selector = .ok s) :
    ∃ infos, (S.put ⟨now, .exporters q⟩).1 = .exporters (.ok infos) ∧
      (∀ id, (∃ i ∈ infos, i.id = id) ↔
        ∃ x ∈ S.registry.list, s.holds x.labels = true ∧ x.id = id) ∧
      ∀ i ∈ infos, ∀ l, i.lease = some l ↔ l ∈ ls ∧ l.exporter = i.id ∧ l.status = .active
  /-- A claim is refused for the lease that is active on the exporter. -/
  held {b : Booking} {id holder : String} (hb : b.span ∈ S.broker.ledger.bounds) :
    (S.broker.ledger.claim b now id).1 = .error (.exporterHeld b.exporter holder) ↔
      ∃ l ∈ ls, l.id = holder ∧ l.exporter = b.exporter ∧ l.status = .active
  /-- If there is none, and the store takes what there is to write, a claim is granted. -/
  free {b : Booking} {id : String} (hb : b.span ∈ S.broker.ledger.bounds)
    (hw : Takes S.broker.ledger.store (S.broker.ledger.toWrite b now id))
    (hno : ∀ l ∈ ls, l.exporter = b.exporter → l.status ≠ .active) :
    (S.broker.ledger.claim b now id).1 = .ok (b.lease now id)
  /-- The summary counts the active leases. -/
  counted : ∃ info, (S.put ⟨now, .summary⟩).1 = .summary info ∧
    info.liveLeases = ls.countP (·.status = .active)
  /-- A lookup gives the lease of the list with the identifier. -/
  found {id : String} {l : Lease} :
    (S.put ⟨now, .lease id⟩).1 = .lease (.ok l) ↔ l ∈ ls ∧ l.id = id
  /-- If there is none, it says so. -/
  missing {id : String} :
    (S.put ⟨now, .lease id⟩).1 = .lease (.error (.unknownLease id)) ↔ ∀ l ∈ ls, l.id ≠ id

section
variable (h : S.broker.ledger.Consistent) (hp : S.broker.ledger.NonePending)
include h hp

/-- Where no record is pending, no answer says that a lease is. -/
theorem Service.not_reports_pending {e : Event} (ha : S.Admits e) :
    ¬ (S.put e).1.Reports id .pending := by
  intro hr
  obtain ⟨l, hl, -, hs⟩ | ⟨-, -, hs⟩ := put_reports h hr
  · exact (put_writes h ha).nonePending hp l hl (Lease.status_eq_pending_of_observedAt hs)
  · cases hs

/-- A service without pending records agrees with its listing of all leases. -/
theorem Service.agrees (now : Instant) :
    S.Agrees now (S.broker.ledger.leases.map (·.observedAt now)) where
  nonePending := hp
  notReported := not_reports_pending h hp
  listed := rfl
  attached {q s} hq hs := by
    refine ⟨_, congrArg Answer.exporters (by rw [Broker.exporters, hs]), fun id => ?_,
      fun i hi l => ?_⟩
    · simp [Broker.info, and_assoc]
    · obtain ⟨x, -, rfl⟩ := List.mem_map.1 hi
      rw [Broker.lease_info_eq_some_iff h hq, and_left_comm, ← hp.mem_shown_active_iff,
        and_left_comm]
      rfl
  held hb := by
    rw [h.claim_eq_held_iff hb, hp.blocking_iff_shown_active]
  free {b id} hb hw hno := by
    refine (Ledger.claim_outcome h b now id).ok_of_takes h hb ?_ hw
    rintro ⟨l, hl, he, hblock⟩
    obtain ⟨l', hl', -, he', ha⟩ := hp.blocking_iff_shown_active.1 ⟨l, hl, rfl, he, hblock⟩
    exact hno l' hl' he' ha
  counted := by
    refine ⟨_, rfl, ?_⟩
    rw [Broker.summary, List.countP_map]
    refine List.countP_congr fun l hl => ?_
    rw [Function.comp_apply, decide_eq_true_iff]
    exact Lease.isLive_iff_shown_active (hp l hl)
  found := (Iff.of_eq (Answer.lease.injEq _ _)).trans (Broker.lease_eq_ok_iff h)
  missing := (Iff.of_eq (Answer.lease.injEq _ _)).trans (Broker.lease_eq_unknown_iff h)

end

/-! ## Every service -/

/-- A request does to the ledger what some actions do. -/
theorem Service.put_run {e : Event} (h : S.broker.ledger.Consistent) (ha : S.Admits e) :
    ∃ as, Ledger.Run S.broker.ledger as (S.put e).2.broker.ledger := by
  obtain ⟨now, call⟩ := e
  cases call with
  | allocate o => exact (Broker.allocate_outcome h o S.registry.list now _).run (ha o rfl)
  | release id => exact ⟨[.release id now], .cons trivial (.nil _)⟩
  | sweep => exact ⟨[.sweep now], .cons trivial (.nil _)⟩
  | lease | list | exporters | summary | update => exact ⟨[], .nil _⟩

/-- So do requests one after the other. -/
theorem Service.after_run : ∀ {es : List Event} {S : Service σ}, S.broker.ledger.Consistent →
    S.AdmitsAll es → ∃ as, Ledger.Run S.broker.ledger as (S.after es).broker.ledger
  | [], S, _, _ => ⟨[], .nil S.broker.ledger⟩
  | _ :: _, _, h, ⟨ha, hnew⟩ => by
    obtain ⟨as, first⟩ := put_run h ha
    obtain ⟨as', others⟩ := after_run (put_consistent h ha) hnew
    exact ⟨as ++ as', first.append others⟩

/-- Whatever was asked of a ledger that had no pending record when it was made, and whichever writes
failed: a service over it tells the same everywhere, with any registry and at any time. Nothing is
shown as pending. The lease that an exporter is listed with, the lease for which a claim on it is
refused, and the active lease on it in the listing of all leases are one; the summary counts these
leases, and lookups give the leases of the listing. Reference: `LeaseLedger.holder` and
`LeaseBroker.list`, §4.5 and §9. -/
theorem Ledger.Run.views_agree {L₀ : Ledger σ} {as : List Ledger.Action} (h₀ : L₀.Opened)
    (hp : ∀ l ∈ L₀.leases, l.status ≠ .pending) (hr : Ledger.Run L₀ as S.broker.ledger)
    (now : Instant) : ∃ ls, S.Agrees now ls := by
  have writes := hr.writes h₀.consistent
  exact ⟨_, agrees (writes.consistent h₀.consistent) (writes.nonePending hp) now⟩

namespace Service

theorem leases_after_board : (boardService.after boardEvents).broker.ledger.leases =
    [{ boardLease "a" 0 with status := .released }, boardLease "b" 30000] := by
  rw [boardEvents, after, List.foldl_cons, put_board rfl (by decide), List.foldl_cons,
    List.foldl_cons, List.foldl_cons, put_board rfl (by decide)]
  rfl

/-- After its requests the board is listed with the second lease, for which it cannot be claimed,
and which is the only active one. -/
theorem views_agree_board :
    boardService.broker.ledger.Opened ∧
    (∀ l ∈ boardService.broker.ledger.leases, l.status ≠ .pending) ∧
    ∃ as ls, Ledger.Run boardService.broker.ledger as
      (boardService.after boardEvents).broker.ledger ∧
      (boardService.after boardEvents).Agrees 45000 ls ∧
      ls = [{ boardLease "a" 0 with status := .released }, boardLease "b" 30000] := by
  have opened : boardService.broker.ledger.Opened := .blank rfl
  have none_pending : ∀ l ∈ boardService.broker.ledger.leases, l.status ≠ .pending := nofun
  obtain ⟨as, run⟩ := after_run opened.consistent admitsAll_board
  obtain ⟨ls, agrees⟩ := run.views_agree opened none_pending 45000
  refine ⟨opened, none_pending, as, ls, run, agrees, ?_⟩
  have listed :
      (boardService.after boardEvents).broker.ledger.leases.map (·.observedAt 45000) = ls :=
    Except.ok.inj (Answer.leases.inj agrees.listed)
  rw [leases_after_board] at listed
  exact listed.symm

end Service

end LabLease
