import LabLease.Ledger
import LabLease.Settings

/-!
# The broker

The broker joins settings and a ledger with a registry and a clock, both of which are arguments
here: `listed` is what the registry lists and `now` what the clock reads when a request arrives.
It finds the exporters that satisfy a selector and hands out leases on them, and it presents
leases as they are at `now`.
-/

namespace LabLease

/-- Settings, and the ledger that is kept under them. Reference: `LeaseBroker`, §4.5. -/
structure Broker (σ : Type) where
  /-- The settings, which have no flaw. -/
  settings : Settings
  /-- The lease records. -/
  ledger : Ledger σ

/-- A request for a lease on any exporter that satisfies a selector. Reference: the arguments of
`LeaseBroker.allocate`. -/
structure Order where
  /-- The selector text. -/
  selector : String
  /-- For how long. -/
  span : Span
  /-- A name for the lease. -/
  name : Option String := none
deriving DecidableEq, Repr

/-- What a listing of exporters should contain. Reference: `ExporterQuery`. -/
structure ExporterQuery where
  /-- The exporters to list; all, if left out. -/
  selector : Option String := none
  /-- Whether to attach the lease that holds each exporter. -/
  includeLeases : Bool := false
  /-- Whether to say if each exporter can be reached. -/
  includeOnline : Bool := true
deriving DecidableEq, Repr

/-- An exporter as it is listed. Reference: `ExporterInfo`. -/
structure ExporterInfo where
  /-- Its identifier. -/
  id : String
  /-- Its labels. -/
  labels : Labels
  /-- Whether it can be reached, if asked for. -/
  online : Option Bool
  /-- The lease that holds it, if asked for and if there is one. -/
  lease : Option Lease
deriving DecidableEq, Repr

/-- The settings in effect and a summary of the records. Reference: `BrokerInfo`. -/
structure BrokerInfo where
  /-- The settings in effect. -/
  settings : Settings
  /-- The kind of store. -/
  storage : String
  /-- How many exporters are listed. -/
  exporters : Nat
  /-- How many leases hold their exporter. -/
  liveLeases : Nat
deriving DecidableEq, Repr

namespace Broker

variable {σ : Type}

/-- A broker over a ledger that exists already. Reference: `LeaseBroker.new`. -/
def ofLedger (settings : Settings) (ledger : Ledger σ) : Except Failure (Broker σ) :=
  match settings.check with
  | .error f => .error f
  | .ok () => .ok ⟨settings, ledger⟩

/-- A broker whose leases are kept in process memory. Reference: `LeaseBroker.in_memory`. -/
def inMemory (settings : Settings) : Except Failure (Broker MemoryStore) :=
  ofLedger settings (Ledger.blank settings.bounds MemoryStore.empty)

/-- A broker whose ledger is loaded from a store and written through to it. The settings are looked
at first. Reference: `LeaseBroker.with_store`. -/
def ofStore [LeaseStore σ] (settings : Settings) (store : σ) : Except Failure (Broker σ) :=
  match settings.check with
  | .error f => .error f
  | .ok () =>
    match Ledger.ofStore settings.bounds store with
    | .error f => .error f
    | .ok ledger => .ok ⟨settings, ledger⟩

/-- The lease with an identifier, as it is at `now`. Reference: `LeaseBroker.lease`, §14. -/
def lease (B : Broker σ) (id : String) (now : Instant) : Except Failure Lease :=
  match B.ledger.get id with
  | .error f => .error f
  | .ok l => .ok (l.observedAt now)

/-- The leases on exporters that satisfy a selector, oldest first and as they are at `now`; all
leases, if the selector is left out or blank. Reference: `LeaseBroker.list`, §4.5. -/
def list (B : Broker σ) (selector : Option String) (listed : List Exporter) (now : Instant) :
    Except Failure (List Lease) :=
  match Selector.parseOptional selector with
  | .error f => .error f
  | .ok s => .ok ((B.ledger.list s listed).map (·.observedAt now))

/-- The listing of one exporter. -/
def info (B : Broker σ) (q : ExporterQuery) (now : Instant) (e : Exporter) : ExporterInfo where
  id := e.id
  labels := e.labels
  online := if q.includeOnline then some e.online else none
  lease := if q.includeLeases then B.ledger.holder? e.id now else none

/-- The exporters that satisfy a query's selector, in ascending order of their identifiers.
Reference: `LeaseBroker.exporters`, §14. -/
def exporters (B : Broker σ) (q : ExporterQuery) (listed : List Exporter) (now : Instant) :
    Except Failure (List ExporterInfo) :=
  match Selector.parseOptional q.selector with
  | .error f => .error f
  | .ok s => .ok ((Exporter.sorted (listed.filter fun e => s.holds e.labels)).map (B.info q now))

/-- The exporters that an order may be filled with, in the order in which they are tried: those
online that satisfy the selector, by identifier. -/
def candidates (s : Selector) (listed : List Exporter) : List Exporter :=
  Exporter.sorted (listed.filter fun e => e.online && s.holds e.labels)

variable [LeaseStore σ]

/-- The settings in effect and a summary at `now`. Reference: `LeaseBroker.config`, §14. -/
def summary (B : Broker σ) (listed : List Exporter) (now : Instant) : BrokerInfo where
  settings := B.settings
  storage := LeaseStore.describe B.ledger.store
  exporters := listed.length
  liveLeases := B.ledger.leases.countP (·.isLive now)

/-- Claims the first of a list of exporters that is not held. Reference: the loop of
`LeaseBroker.allocate`. -/
def claimFirst (L : Ledger σ) (o : Order) (now : Instant) (id : String) :
    List Exporter → Except Failure Lease × Ledger σ
  | [] => (.error (.allLeased o.selector), L)
  | e :: es =>
    match L.claim ⟨e.id, o.span, o.name, o.selector⟩ now id with
    | (.error (.exporterHeld _ _), L') => claimFirst L' o now id es
    | answer => answer

/-- Leases one exporter that is online and satisfies the order's selector: the first by identifier
that is not held. Reference: `LeaseBroker.allocate`, §4.5. -/
def allocate (B : Broker σ) (o : Order) (listed : List Exporter) (now : Instant) (id : String) :
    Except Failure Lease × Broker σ :=
  match Selector.parse o.selector with
  | .error f => (.error f, B)
  | .ok s =>
    match B.ledger.bounds.check o.span with
    | .error f => (.error f, B)
    | .ok () =>
      match candidates s listed with
      | [] => (.error (.noExporter o.selector), B)
      | e :: es =>
        ((claimFirst B.ledger o now id (e :: es)).1,
          { B with ledger := (claimFirst B.ledger o now id (e :: es)).2 })

/-- Gives a lease back. Reference: `LeaseBroker.release`, §4.5. -/
def release (B : Broker σ) (id : String) (now : Instant) : Except Failure Lease × Broker σ :=
  ((B.ledger.release id now).1, { B with ledger := (B.ledger.release id now).2 })

/-- One sweep at `now`, with the number of leases it recorded as expired. -/
def sweep (B : Broker σ) (now : Instant) : Nat × Broker σ :=
  ((B.ledger.sweep now).1, { B with ledger := (B.ledger.sweep now).2 })

end Broker

end LabLease
