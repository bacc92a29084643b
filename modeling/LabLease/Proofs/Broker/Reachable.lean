import LabLease.Proofs.Broker.Choice
import LabLease.Proofs.Ledger.Run

/-!
# Reachable brokers

A broker is made over a ledger that is new, or over all records of a store. From then on it fills
orders, takes leases back and sweeps; and since others may use its ledger too, anything that can be
asked of a ledger may happen in between (`Broker.Reachable`). Identifiers of new leases are fresh,
and nothing else is asked of the order of events, the listings, the clock or the store.

The ledger of a reachable broker is a reachable ledger (`Reachable.ledger`), since filling an order
claims at most one exporter with effect.
-/

namespace LabLease

variable {σ : Type} [LeaseStore σ]

/-- Filling an order does to the ledger nothing, or what one claim does. -/
theorem AllocateOutcome.run {L L' : Ledger σ} {o : Order} {listed : List Exporter}
    {now : Instant} {id : String} {a : Except Failure Lease}
    (ho : AllocateOutcome L o listed now id a L') (hid : L.knows id = false) :
    ∃ as, Ledger.Run L as L' := by
  cases ho with
  | badSelector | outOfRange | noExporter | allLeased => exact ⟨[], .nil L⟩
  | @claimed s r _ _ _ _ _ ha _ =>
    have run : Ledger.Run L [.claim (o.booking r) now id] (L.claim (o.booking r) now id).2 :=
      .cons hid (.nil _)
    rw [ha] at run
    exact ⟨_, run⟩

namespace Broker

/-- A broker as it may be found at any time. -/
inductive Reachable : Broker σ → Prop
  /-- It is made over a ledger. -/
  | ofLedger {settings : Settings} {L : Ledger σ} {B : Broker σ} (h : L.Reachable)
      (hB : ofLedger settings L = .ok B) : Reachable B
  /-- Its ledger is loaded from a store. -/
  | ofStore {settings : Settings} {store : σ} {B : Broker σ} (hB : ofStore settings store = .ok B) :
      Reachable B
  /-- It was asked for a lease. -/
  | allocate {B : Broker σ} (h : Reachable B) (o : Order) (listed : List Exporter) (now : Instant)
      {id : String} (hid : B.ledger.knows id = false) :
      Reachable (B.allocate o listed now id).2
  /-- It was given a lease back. -/
  | release {B : Broker σ} (h : Reachable B) (id : String) (now : Instant) :
      Reachable (B.release id now).2
  /-- It was swept. -/
  | sweep {B : Broker σ} (h : Reachable B) (now : Instant) : Reachable (B.sweep now).2
  /-- Something was asked of its ledger directly. -/
  | act {B : Broker σ} (h : Reachable B) {a : Ledger.Action} (ha : B.ledger.Admits a) :
      Reachable { B with ledger := B.ledger.after a }

/-- The ledger of a broker that is made over a store is loaded from it, under the bounds of the
settings. -/
theorem ledger_of_ofStore {settings : Settings} {store : σ} {B : Broker σ}
    (hB : ofStore settings store = .ok B) :
    Ledger.ofStore settings.bounds store = .ok B.ledger := by
  unfold ofStore at hB
  split at hB
  · cases hB
  · split at hB
    · cases hB
    · next hL =>
      cases hB
      exact hL

/-- The ledger of a reachable broker is reachable. -/
theorem Reachable.ledger {B : Broker σ} (h : B.Reachable) : B.ledger.Reachable := by
  induction h with
  | ofLedger h hB =>
    unfold Broker.ofLedger at hB
    split at hB
    · cases hB
    · cases hB
      exact h
  | ofStore hB => exact (Ledger.Opened.loaded (ledger_of_ofStore hB)).reachable
  | allocate _ o listed now hid ih =>
    obtain ⟨as, hr⟩ := (allocate_outcome ih.consistent o listed now _).run hid
    exact ih.run hr
  | release _ id now ih => exact ih.run (.cons (a := .release id now) trivial (.nil _))
  | sweep _ now ih => exact ih.run (.cons (a := .sweep now) trivial (.nil _))
  | act _ ha ih => exact ih.run (.cons ha (.nil _))

/-- The tables of a reachable broker's ledger agree with its records. -/
theorem Reachable.consistent {B : Broker σ} (h : B.Reachable) : B.ledger.Consistent :=
  h.ledger.consistent

/-- A broker that has loaded one open lease, under the default settings. -/
def withLease (l : Lease) (store : σ) : Broker σ where
  settings := {}
  ledger :=
    { bounds := ({} : Settings).bounds
      leases := [l]
      index := KeyMap.empty.insert l.id 0
      holders := KeyMap.empty.insert l.exporter l.id
      store := store }

/-- It is made over any store that has this lease and no other. -/
theorem reachable_withLease {l : Lease} {store : σ} (h : LeaseStore.load store = .ok [l])
    (ho : l.status.isOver = false) : (withLease l store).Reachable := by
  have ledger : Ledger.ofStore ({} : Settings).bounds store = .ok (withLease l store).ledger := by
    simp [Ledger.ofStore, h, Ledger.ofRecords, Ledger.tabulate, KeyMap.contains, ho, withLease]
  have opened : ofStore {} store = .ok (withLease l store) := by
    rw [ofStore, ledger]
    rfl
  exact .ofStore opened

/-- A lease of a board for the first minute. -/
def minuteLease : Lease := ⟨"a", none, "type=board", "e1", .active, 0, 60000, 60000⟩

end Broker

end LabLease
