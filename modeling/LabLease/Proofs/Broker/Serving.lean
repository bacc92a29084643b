import LabLease.Proofs.Broker.Thinning
import LabLease.Proofs.Ledger.Copies
import LabLease.Proofs.Ledger.Restart

/-!
# A broker over a store that others write to

What a broker does to the rows of its store when it serves a request, even if others wrote to the
store since it was opened: it records nothing that is not a row, but the lease that it grants
(`Broker.serve_added`), and changes the rows as its ledger does (`Broker.serve_changes`).
-/

namespace LabLease

open LeaseStore

variable {σ : Type}

/-! ## What a request adds to the records -/

/-- Records that are shown the same have the same identifiers. -/
theorem Records.map_id_eq_of_seenAt {now : Instant} {ls ls' : List Lease}
    (h : seenAt now ls' = seenAt now ls) : ls'.map (·.id) = ls.map (·.id) := by
  rw [← map_id_seenAt now ls', h, map_id_seenAt]

/-- What has an identifier that is there, if the identifiers are the same. -/
theorem exists_id_eq_of_map_eq {ls ls' : List Lease} {l : Lease}
    (h : ls'.map (·.id) = ls.map (·.id)) (hl : l ∈ ls') : ∃ l₀ ∈ ls, l₀.id = l.id := by
  rw [← List.mem_map, ← h]
  exact List.mem_map_of_mem hl

variable [LeaseStore σ] {L L' : Ledger σ} {l r : Lease} {rows rows' : List Lease}

/-- What an allocation adds to the records is what it grants, under its identifier. -/
theorem AllocateOutcome.added {o : Order} {listed : List Exporter} {now : Instant} {id : String}
    {a : Except Failure Lease} (ho : AllocateOutcome L o listed now id a L') (h : L.Consistent)
    (hl : l ∈ L'.leases) : (∃ l₀ ∈ L.leases, l₀.id = l.id) ∨ l.id = id ∧ a = .ok l := by
  cases a with
  | error f =>
    exact .inl (exists_id_eq_of_map_eq (Records.map_id_eq_of_seenAt ho.seenAt_of_error) hl)
  | ok l' =>
    obtain ⟨r, hnew, hleases⟩ := ho.granted_of_ok h
    rw [hleases, List.mem_append, List.mem_singleton] at hl
    obtain hl | rfl := hl
    · have settled := Records.seenAt_settle (UInt64.le_refl now) (·.exporter == r) L.leases
      exact .inl (exists_id_eq_of_map_eq (Records.map_id_eq_of_seenAt settled) hl)
    · exact .inr ⟨congrArg Lease.id hnew, rfl⟩

/-- A release adds nothing. -/
theorem Ledger.ReleaseOutcome.added {id : String} {now : Instant} {a : Except Failure Lease}
    (ho : ReleaseOutcome L id now a L') (hl : l ∈ L'.leases) : ∃ l₀ ∈ L.leases, l₀.id = l.id := by
  cases a with
  | error f => exact exists_id_eq_of_map_eq (Records.map_id_eq_of_seenAt ho.seenAt_of_error) hl
  | ok _ =>
    cases ho with
    | @released pos l₀ _ hl₀ =>
      have same : (L.leases.set pos { l₀ with status := .released }).map (·.id) =
        L.leases.map (·.id) := map_id_set hl₀ rfl
      exact exists_id_eq_of_map_eq same hl

/-! ## One broker -/

/-- What can be asked of a broker. -/
inductive Broker.Call
  /-- It is opened again. -/
  | reopen (settings : Settings)
  | allocate (o : Order) (listed : List Exporter) (now : Instant) (id : String)
  | release (id : String) (now : Instant)
  | sweep (now : Instant)

/-- The request is to be opened again. -/
def Broker.Call.isReopen : Call → Bool
  | .reopen _ => true
  | _ => false

/-- The broker after a request. If it cannot be opened it is as it was. -/
def Broker.serve (B : Broker σ) : Call → Broker σ
  | .reopen settings =>
    match ofStore settings B.ledger.store with
    | .error _ => B
    | .ok B' => B'
  | .allocate o listed now id => (B.allocate o listed now id).2
  | .release id now => (B.release id now).2
  | .sweep now => (B.sweep now).2

variable {holds : σ → List Lease → Prop} {B : Broker σ} {c : Broker.Call}

/-- A broker that is opened keeps the store it was opened over, and has its rows for records. -/
theorem Broker.load_of_ofStore {settings : Settings} {store : σ}
    (hB : ofStore settings store = .ok B) :
    B.ledger.store = store ∧ load store = .ok B.ledger.leases := by
  obtain ⟨-, hstore, hload⟩ := Ledger.kept_of_ofStore (ledger_of_ofStore hB)
  exact ⟨hstore, hstore ▸ hload⟩

/-- So it has a copy of the rows. -/
theorem Broker.copies_of_ofStore {settings : Settings} {store : σ} (hk : Keeps holds)
    (hh : holds store rows) (hB : ofStore settings store = .ok B) :
    B.ledger.leases = rows ∧ B.ledger.Copies rows := by
  have consistent : B.ledger.Consistent := (Broker.Reachable.ofStore hB).consistent
  have loaded := (load_of_ofStore hB).2
  rw [hk.load hh] at loaded
  obtain rfl := Except.ok.inj loaded
  exact ⟨rfl, consistent, fun {l} hl => ⟨l.status, hl, .inl rfl⟩⟩

/-- What a request adds to the records are the rows, if the broker is opened, or the lease that it
grants. -/
theorem Broker.serve_added (hk : Keeps holds) (hh : holds B.ledger.store rows)
    (h : B.ledger.Consistent) (hl : l ∈ (B.serve c).ledger.leases) :
    (∃ l₀ ∈ B.ledger.leases, l₀.id = l.id) ∨ (∃ settings, c = .reopen settings) ∧ l ∈ rows ∨
      ∃ o listed now, c = .allocate o listed now l.id ∧
        (B.allocate o listed now l.id).1 = .ok l := by
  cases c with
  | reopen settings =>
    rw [serve] at hl
    split at hl
    · exact .inl ⟨l, hl, rfl⟩
    · next B' hB =>
      obtain ⟨hleases, -⟩ := copies_of_ofStore hk hh hB
      exact .inr (.inl ⟨⟨settings, rfl⟩, hleases ▸ hl⟩)
  | allocate o listed now id =>
    obtain hold | ⟨rfl, hok⟩ := (allocate_outcome h o listed now id).added h hl
    · exact .inl hold
    · exact .inr (.inr ⟨o, listed, now, rfl, hok⟩)
  | release id now => exact .inl ((Ledger.release_outcome h id now).added hl)
  | sweep now =>
    exact .inl (exists_id_eq_of_map_eq (Records.map_id_eq_of_seenAt (h.seenAt_sweep now)) hl)

/-- A broker that may be left behind changes the rows as its ledger does, and not at all when it is
opened. -/
theorem Broker.serve_changes (hk : Keeps holds) (hh : holds B.ledger.store rows)
    (hc : B.ledger.Copies rows) (hn : (rows.map (·.id)).Nodup)
    (hnew : ∀ o listed now id, c = .allocate o listed now id → ∀ r ∈ rows, r.id ≠ id) :
    ∃ rows', holds (B.serve c).ledger.store rows' ∧
      Ledger.Changes B.ledger (B.serve c).ledger rows rows' ∧
      (c.isReopen = true → rows' = rows) := by
  have h := hc.consistent
  have fresh (hre : ∀ settings, c ≠ .reopen settings) :
      Ledger.Fresh B.ledger (B.serve c).ledger rows := by
    intro l hl hnot
    obtain ⟨l₀, hl₀, hid⟩ | ⟨⟨settings, he⟩, -⟩ | ⟨o, listed, now, he, -⟩ :=
      serve_added hk hh h hl
    · exact absurd hid (hnot l₀ hl₀)
    · exact absurd he (hre settings)
    · exact hnew _ _ _ _ he
  cases c with
  | reopen settings =>
    rw [serve]
    split
    · exact ⟨rows, hh, hc.unchanged hn B.ledger.store, fun _ => rfl⟩
    · next B' hB =>
      obtain ⟨hleases, hc'⟩ := copies_of_ofStore hk hh hB
      refine ⟨rows, (load_of_ofStore hB).1 ▸ hh, ⟨hn, hc', fun {l} hl => ?_,
        fun {_ r} hr => ⟨r.status, hr, .inl rfl⟩, fun hr => .inl ⟨_, hr, rfl⟩⟩, fun _ => rfl⟩
      obtain ⟨status, hrow, -⟩ := hc.row hl
      exact ⟨{ l with status := status }, hleases ▸ hrow, rfl⟩
  | allocate o listed now id =>
    have hid : B.ledger.knows id = false := by
      refine h.knows_eq_false_iff.2 fun l hl => ?_
      obtain ⟨status, hrow, -⟩ := hc.row hl
      exact hnew o listed now id rfl { l with status := status } hrow
    obtain ⟨rows', hh', change⟩ :=
      ((allocate_outcome h o listed now id).writes hid).changes hk hh hc hn (fresh nofun)
    exact ⟨rows', hh', change, nofun⟩
  | release id now =>
    obtain ⟨rows', hh', change⟩ :=
      (Ledger.release_outcome h id now).writes.changes hk hh hc hn (fresh nofun)
    exact ⟨rows', hh', change, nofun⟩
  | sweep now =>
    obtain ⟨rows', hh', change⟩ := (Ledger.expireAll_writes _ h).changes hk hh hc hn (fresh nofun)
    exact ⟨rows', hh', change, nofun⟩

end LabLease
