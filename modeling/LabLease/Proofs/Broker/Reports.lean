import LabLease.Proofs.Broker.Deadline
import LabLease.Proofs.Broker.Turns

/-!
# Reports that a lease is over

Answers say in which status leases are (`Service.Answer.Reports`): lookups and listings show them, a
listing of exporters attaches those that hold one, and a release gives the lease or says that it is
over already. All of them, but for the lease that an order is filled with, say what the ledger shows
after the request (`Service.put_reports`).

A lease can be reported as expired long before that is recorded, and the record may never follow,
since the store may refuse every write. Still no later answer contradicts the report
(`Service.reported_over_stays`), because what is shown as over is shown the same after any request
(`Ledger.Shows.put`).
-/

namespace LabLease

open Service

variable {σ : Type} {L L' : Ledger σ} {l : Lease} {id id' : String} {st st' : Status}
  {now later : Instant} {e : Event}

/-- An answer says in which status a lease is. -/
inductive Service.Answer.Reports : Answer → String → Status → Prop
  /-- It is about this lease. -/
  | lease (l : Lease) : Reports (.lease (.ok l)) l.id l.status
  | listed {ls : List Lease} {l : Lease} (hl : l ∈ ls) : Reports (.leases (.ok ls)) l.id l.status
  | attached {infos : List ExporterInfo} {i : ExporterInfo} {l : Lease} (hi : i ∈ infos)
      (hl : i.lease = some l) : Reports (.exporters (.ok infos)) l.id l.status
  /-- The lease cannot be given back any more. -/
  | refused (id : String) (st : Status) : Reports (.lease (.error (.alreadyOver id st))) id st

/-- The answer to a request agrees that a lease is over, in this status. -/
structure Service.Answer.Confirms (a : Answer) (e : Event) (id : String) (st : Status) : Prop where
  /-- Whatever it says of the lease is that. -/
  reports {st' : Status} (hr : a.Reports id st') : st' = st
  /-- A lookup says it. -/
  found (he : e.call = .lease id) : ∃ l, a = .lease (.ok l) ∧ l.id = id ∧ l.status = st
  /-- A listing of all leases says it. -/
  listed (he : e.call = .list none) :
    ∃ ls, a = .leases (.ok ls) ∧ ∃ l ∈ ls, l.id = id ∧ l.status = st
  /-- A release is refused for it, unless the store fails. -/
  refused (he : e.call = .release id) :
    a = .lease (.error (.alreadyOver id st)) ∨ a.StoreFailed

/-! ## What a ledger shows -/

/-- The lease with an identifier is shown in a status. -/
def Ledger.Shows (L : Ledger σ) (now : Instant) (id : String) (st : Status) : Prop :=
  ∃ l ∈ L.leases, l.id = id ∧ (l.observedAt now).status = st

/-- A lease is shown in one status. -/
theorem Ledger.Shows.unique (hs : L.Shows now id st) (h : L.Consistent)
    (hs' : L.Shows now id st') : st = st' := by
  obtain ⟨l, hl, hid, rfl⟩ := hs
  obtain ⟨l', hl', hid', rfl⟩ := hs'
  rw [h.eq_of_id hl hl' (hid.trans hid'.symm)]

/-- What is over is shown as it is recorded. -/
theorem Ledger.shows_of_isOver (hl : l ∈ L.leases) (ho : l.status.isOver = true) :
    L.Shows now l.id l.status :=
  ⟨l, hl, rfl, by rw [Lease.observedAt_of_isOver ho]⟩

/-- What has been shown as over is shown so later. -/
theorem Ledger.Shows.mono (hs : L.Shows now id st) (ho : st.isOver = true) (hle : now ≤ later) :
    L.Shows later id st := by
  obtain ⟨l, hl, hid, rfl⟩ := hs
  exact ⟨l, hl, hid, congrArg Lease.status (Lease.observedAt_of_shown_over hle ho)⟩

/-- What an exporter is listed with is the live lease on it. -/
theorem Broker.lease_info_eq_some_iff {B : Broker σ} {q : ExporterQuery} {x : Exporter}
    (h : B.ledger.Consistent) (hq : q.includeLeases = true) : (B.info q now x).lease = some l ↔
      l ∈ B.ledger.leases ∧ l.exporter = x.id ∧ l.isLive now = true := by
  rw [info, hq]
  exact h.holder?_eq_some_iff

variable [LeaseStore σ]

/-- No request changes that. -/
theorem Ledger.Shows.put {S : Service σ} (hs : S.broker.ledger.Shows now id st)
    (ho : st.isOver = true) (hle : now ≤ e.time) (h : S.broker.ledger.Consistent)
    (ha : S.Admits e) : (S.put e).2.broker.ledger.Shows e.time id st := by
  obtain ⟨l, hl, rfl, rfl⟩ := hs
  obtain ⟨pos, hpos⟩ := List.mem_iff_getElem?.1 hl
  obtain ⟨l', hl', ht⟩ := put_turns h ha hpos
  exact ⟨l', List.mem_of_getElem? hl', ht.id_eq, congrArg Lease.status (ht.observedAt_eq hle ho)⟩

/-! ## What the answers say -/

/-- An allocation reports nothing but its new lease. -/
theorem AllocateOutcome.reports {o : Order} {listed : List Exporter} {a : Except Failure Lease}
    (ho : AllocateOutcome L o listed now id a L') (hr : (Answer.lease a).Reports id' st) :
    id' = id ∧ st = .active := by
  cases hr with
  | lease l =>
    obtain ⟨-, r, rfl⟩ := ho.booked_of_ok
    exact ⟨rfl, rfl⟩
  | refused =>
    cases ho with
    | claimed _ _ _ _ hclaim => cases hclaim

/-- A release reports that a lease is over, as it is shown afterwards. -/
theorem Ledger.ReleaseOutcome.reports {a : Except Failure Lease}
    (ho : ReleaseOutcome L id now a L') (hr : (Answer.lease a).Reports id' st) :
    L'.Shows now id' st ∧ st.isOver = true := by
  have closed {pos : Nat} {l : Lease} {status : Status} {s : σ} (hl : L.leases[pos]? = some l)
      (hs : status.isOver = true) : (L.closed pos l status s).Shows now l.id status := by
    obtain ⟨hlt, -⟩ := List.getElem?_eq_some_iff.1 hl
    exact shows_of_isOver (l := { l with status := status })
      (List.mem_of_getElem? (List.getElem?_set_self hlt)) hs
  cases ho with
  | unknown | refused => cases hr
  | ended hl hid hover =>
    cases hr
    exact ⟨hid ▸ shows_of_isOver (List.mem_of_getElem? hl) hover, hover⟩
  | late hl hid _ =>
    cases hr
    exact ⟨hid ▸ closed hl rfl, rfl⟩
  | released hl hid _ _ =>
    cases hr
    exact ⟨closed hl rfl, rfl⟩

/-- A lease that is shown as over is not given back, but refused for that, unless the store
fails. -/
theorem Ledger.ReleaseOutcome.refuses {a : Except Failure Lease}
    (ho : ReleaseOutcome L id now a L') (h : L.Consistent) (hs : L.Shows now id st)
    (hover : st.isOver = true) :
    a = .error (.alreadyOver id st) ∨ ∃ fault, a = .error (.store fault) := by
  obtain ⟨l, hl, rfl, rfl⟩ := hs
  cases ho with
  | unknown hid => exact absurd rfl (hid l hl)
  | ended hl' hid ho' =>
    obtain rfl := h.eq_of_id (List.mem_of_getElem? hl') hl hid
    rw [Lease.observedAt_of_isOver ho']
    exact .inl rfl
  | refused => exact .inr ⟨_, rfl⟩
  | late hl' hid hd =>
    obtain rfl := h.eq_of_id (List.mem_of_getElem? hl') hl hid
    rw [Lease.observedAt_of_isDue hd]
    exact .inl rfl
  | released hl' hid ho' hd =>
    obtain rfl := h.eq_of_id (List.mem_of_getElem? hl') hl hid
    rw [Lease.isOver_observedAt, ho', hd] at hover
    cases hover

namespace Service

variable {S : Service σ} {es : List Event}

/-- An answer says of a lease what is shown of it after the request, unless it is granted by it. -/
theorem put_reports (h : S.broker.ledger.Consistent) (hr : (S.put e).1.Reports id st) :
    (S.put e).2.broker.ledger.Shows e.time id st ∨
      (∃ o, e.call = .allocate o) ∧ id = S.draw S.granted ∧ st = .active := by
  obtain ⟨now, call⟩ := e
  cases call with
  | allocate o =>
    exact .inr ⟨⟨o, rfl⟩, (Broker.allocate_outcome h o S.registry.list now _).reports hr⟩
  | release id => exact .inl ((Ledger.release_outcome h id now).reports hr).1
  | lease id =>
    simp only [put, Broker.lease, h.get_eq_records] at hr
    cases hf : S.broker.ledger.leases.find? (·.id == id) with
    | none =>
      rw [hf] at hr
      cases hr
    | some l =>
      rw [hf] at hr
      cases hr
      exact .inl ⟨l, List.mem_of_find?_eq_some hf, (l.observedAt_id now).symm, rfl⟩
  | list selector =>
    simp only [put, Broker.list] at hr
    split at hr
    · cases hr
    · cases hr with
      | listed hl =>
        obtain ⟨l, hmem, rfl⟩ := List.mem_map.1 hl
        exact .inl ⟨l, Ledger.list_subset _ _ _ hmem, (l.observedAt_id now).symm, rfl⟩
  | exporters q =>
    simp only [put, Broker.exporters] at hr
    split at hr
    · cases hr
    · cases hr with
      | attached hi hl =>
        obtain ⟨x, -, rfl⟩ := List.mem_map.1 hi
        cases hq : q.includeLeases with
        | false => simp [Broker.info, hq] at hl
        | true =>
          obtain ⟨hmem, -, hlive⟩ := (Broker.lease_info_eq_some_iff h hq).1 hl
          exact .inl ⟨_, hmem, rfl, by rw [Lease.observedAt_of_isLive hlive]⟩
  | update u =>
    cases u with
    | setOnline id online =>
      simp only [put, Registry.Update.apply] at hr
      split at hr <;> cases hr
    | refresh | upsert | remove => cases hr
  | summary | sweep => cases hr

/-- After a lease has been shown as over, every answer agrees with that. -/
theorem put_confirms (h : S.broker.ledger.Consistent) (ha : S.Admits e)
    (hs : S.broker.ledger.Shows now id st) (ho : st.isOver = true) (hle : now ≤ e.time) :
    (S.put e).1.Confirms e id st where
  reports {st'} hr := by
    obtain hs' | ⟨⟨o, he⟩, rfl, -⟩ := put_reports h hr
    · exact hs'.unique (put_consistent h ha) (hs.put ho hle h ha)
    · obtain ⟨l, hl, hid, -⟩ := hs
      exact absurd hid (h.knows_eq_false_iff.1 (ha o he) l hl)
  found he := by
    obtain ⟨l, hl, hid, rfl⟩ := hs.mono ho hle
    refine ⟨l.observedAt e.time, ?_, (l.observedAt_id e.time).trans hid, rfl⟩
    simp only [put, he, Broker.lease, h.get_eq_records, h.find?_id_eq_some hl hid]
  listed he := by
    obtain ⟨l, hl, hid, rfl⟩ := hs.mono ho hle
    refine ⟨S.broker.ledger.leases.map (·.observedAt e.time), ?_, l.observedAt e.time,
      List.mem_map_of_mem hl, (l.observedAt_id e.time).trans hid, rfl⟩
    simp only [put, he, Broker.list]
    rfl
  refused he := by
    have hput : (S.put e).1 = .lease (S.broker.ledger.release id e.time).1 := by
      simp only [put, he, Broker.release]
    rw [hput]
    obtain hover | ⟨fault, hf⟩ :=
      (Ledger.release_outcome h id e.time).refuses h (hs.mono ho hle) ho
    · exact .inl (congrArg Answer.lease hover)
    · exact .inr ⟨fault, congrArg (fun a => (Answer.lease a).failure?) hf⟩

/-- All answers from then on agree with it. -/
theorem transcript_confirms : ∀ {es : List Event} {S : Service σ} {now : Instant},
    S.broker.ledger.Consistent → S.AdmitsAll es → S.broker.ledger.Shows now id st →
    st.isOver = true → (∀ e ∈ es, now ≤ e.time) → es.Pairwise (·.time ≤ ·.time) →
    ∀ x ∈ S.transcript es, x.2.Confirms x.1 id st
  | [], _, _, _, _, _, _, _, _ => List.forall_mem_nil _
  | e :: es, S, now, h, ⟨ha, hnew⟩, hs, ho, hle, hclock => by
    have first := hle e List.mem_cons_self
    obtain ⟨hle', hclock⟩ := List.pairwise_cons.1 hclock
    refine List.forall_mem_cons.2 ⟨put_confirms h ha hs ho first, ?_⟩
    exact transcript_confirms (put_consistent h ha) hnew (hs.put ho first h ha) ho hle' hclock

/-- A report that a lease is over is shown to be right after the request. -/
theorem shows_of_put_reports (h : S.broker.ledger.Consistent) (hr : (S.put e).1.Reports id st)
    (hover : st.isOver = true ∨ ∃ id', e.call = .release id') :
    (S.put e).2.broker.ledger.Shows e.time id st ∧ st.isOver = true := by
  obtain ho | ⟨id', he⟩ := hover
  · obtain hs | ⟨-, -, rfl⟩ := put_reports h hr
    · exact ⟨hs, ho⟩
    · cases ho
  · obtain ⟨now, call⟩ := e
    obtain rfl : call = .release id' := he
    exact (Ledger.release_outcome h id' now).reports hr

/-- In a run every answer agrees with all earlier ones that say of a lease that it is over. -/
theorem pairwise_confirms (h : S.broker.ledger.Consistent) (hclock : es.Pairwise (·.time ≤ ·.time))
    (hnew : S.AdmitsAll es) :
    (S.transcript es).Pairwise fun x y => ∀ id st, x.2.Reports id st →
      (st.isOver = true ∨ ∃ id', x.1.call = .release id') → y.2.Confirms y.1 id st := by
  induction es generalizing S with
  | nil => exact .nil
  | cons e es ih =>
    obtain ⟨ha, hnew⟩ := hnew
    obtain ⟨hle, hclock⟩ := List.pairwise_cons.1 hclock
    have next := put_consistent h ha
    refine .cons (fun y hy id st hr hover => ?_) (ih next hclock hnew)
    obtain ⟨hs, ho⟩ := shows_of_put_reports h hr hover
    exact transcript_confirms next hnew hs ho hle hclock y hy

/-- Take any run of a service with a clock that does not go back, over a store that may refuse any
write. If an answer says that a lease is released or expired, or a release says in which status it
is, then all later answers agree: what they say of the lease is that status, lookups and full
listings do say it, and a release is refused for it, unless the store fails. Reference:
`Lease.observed_at`, §3. -/
theorem reported_over_stays (h : S.broker.Reachable) (hclock : es.Pairwise (·.time ≤ ·.time))
    (hnew : S.AdmitsAll es) :
    (S.transcript es).Pairwise fun x y => ∀ id st, x.2.Reports id st →
      (st = .released ∨ st = .expired ∨ ∃ id', x.1.call = .release id') →
      y.2.Confirms y.1 id st := by
  refine (pairwise_confirms h.consistent hclock hnew).imp fun agree id st hr hover => ?_
  refine agree id st hr ?_
  rw [Status.isOver_eq_true_iff, or_assoc]
  exact hover

/-- What may be asked about a lease after its minute. -/
def minuteQuestions : List Event :=
  [⟨60000, .lease "a"⟩, ⟨60000, .release "a"⟩, ⟨60001, .sweep⟩, ⟨60002, .release "a"⟩,
    ⟨60002, .list none⟩]

/-- The lease is looked up and is expired. The store fails when it is given back, and again it is
expired. -/
theorem reported_over_stays_minute :
    minuteService.broker.Reachable ∧
    (minuteService.transcript minuteQuestions).map (·.2) =
      [.lease (.ok { Broker.minuteLease with status := .expired }),
        .lease (.error (.store (.device "disk full"))), .swept 1,
        .lease (.error (.alreadyOver "a" .expired)),
        .leases (.ok [{ Broker.minuteLease with status := .expired }])] ∧
    (minuteService.transcript minuteQuestions).Pairwise fun x y => ∀ id st, x.2.Reports id st →
      (st = .released ∨ st = .expired ∨ ∃ id', x.1.call = .release id') →
      y.2.Confirms y.1 id st := by
  have reachable : minuteService.broker.Reachable := Broker.reachable_withLease rfl rfl
  have new : minuteService.AdmitsAll minuteQuestions := ⟨nofun, nofun, nofun, nofun, nofun, trivial⟩
  exact ⟨reachable, rfl, reported_over_stays reachable (by decide) new⟩

end Service

end LabLease
