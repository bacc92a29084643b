import LabLease.Proofs.Broker.Reachable

/-!
# What an allocation gives

`AllocationSpec` says which answer an order gets, by the first thing that stands in its way: a flaw
in the selector, a length that may not be granted, no eligible exporter, or no eligible exporter
that is not blocked. If nothing does, the answer is an active lease on the chosen exporter, its
record is put behind the others, and at most one other record changes: that of a due holder, which
is expired (`Granted`).

A reachable broker meets this whenever the store takes what is written
(`Broker.Reachable.allocate_meets`). That an exporter is held is for the broker to find out, and
never an answer.
-/

namespace LabLease

open LeaseStore

variable {σ : Type} {L L' : Ledger σ} {o : Order} {listed : List Exporter} {now : Instant}
  {id r : String} {a : Except Failure Lease} {l : Lease}

/-- The records of `L'` are those of `L`, in which a due holder of the exporter has been expired,
with one more behind them. -/
def Granted (L : Ledger σ) (r : String) (now : Instant) (l : Lease) (L' : Ledger σ) : Prop :=
  (L.holders.find? r = none ∧ L'.leases = L.leases ++ [l]) ∨
  ∃ pos l₀, L.leases[pos]? = some l₀ ∧ L.holders.find? r = some l₀.id ∧ l₀.isDue now = true ∧
    L'.leases = L.leases.set pos { l₀ with status := .expired } ++ [l]

/-- The answer that an order should get, and what should become of the ledger. -/
structure AllocationSpec (L : Ledger σ) (o : Order) (listed : List Exporter) (now : Instant)
    (id : String) (a : Except Failure Lease) (L' : Ledger σ) : Prop where
  /-- A selector that cannot be read is refused. -/
  badSelector {f : Failure} (hs : Selector.parse o.selector = .error f) :
    (∃ flaw, f = .invalidSelector o.selector flaw) ∧ a = .error f ∧ L' = L
  /-- Else a length outside the bounds is refused. -/
  outOfRange {s : Selector} (hs : Selector.parse o.selector = .ok s) (hb : o.span ∉ L.bounds) :
    a = .error (.spanOutOfRange o.span L.bounds) ∧ L' = L
  /-- Else there has to be an eligible exporter. -/
  noExporter {s : Selector} (hs : Selector.parse o.selector = .ok s) (hb : o.span ∈ L.bounds)
    (hno : ∀ r, ¬ Eligible s listed r) : a = .error (.noExporter o.selector) ∧ L' = L
  /-- Else one of them has to be not blocked. -/
  allLeased {s : Selector} (hs : Selector.parse o.selector = .ok s) (hb : o.span ∈ L.bounds)
    (hex : ∃ r, Eligible s listed r) (hall : ∀ r, Eligible s listed r → L.Blocked now r) :
    a = .error (.allLeased o.selector) ∧ L' = L
  /-- Else the chosen exporter is leased. -/
  granted {s : Selector} (hs : Selector.parse o.selector = .ok s) (hb : o.span ∈ L.bounds)
    (hex : ∃ r, Eligible s listed r ∧ ¬ L.Blocked now r) :
    ∃ r l, Chosen L s listed now r ∧ a = .ok l ∧ Granted L r now l L' ∧
      l = { id := id, name := o.name, selector := o.selector, exporter := r, status := .active
            createdAt := now, durationMs := clamp64 o.span.millis
            expiresAt := now.plusMillis (clamp64 o.span.millis) }
  /-- That an exporter is held is never an answer. -/
  not_held (e holder : String) : a ≠ .error (.exporterHeld e holder)

variable [LeaseStore σ]

/-- A claim that is granted appends its lease, and expires a due holder. -/
theorem Ledger.ClaimOutcome.granted_of_ok {b : Booking} (ho : ClaimOutcome L b now id (.ok l) L')
    (h : L.Consistent) : Granted L b.exporter now l L' := by
  cases ho with
  | @takeover pos l₀ s s' _ hl he hd hs hs' =>
    have hh : L.holders.find? b.exporter = some l₀.id :=
      h.holders_iff.2 ⟨l₀, List.mem_of_getElem? hl, rfl, he, isOver_of_isDue hd⟩
    exact .inr ⟨pos, l₀, hl, hh, hd, rfl⟩
  | granted _ hf _ => exact .inl ⟨hf, rfl⟩

/-- That an exporter is held is never an answer. -/
theorem AllocateOutcome.not_held (ho : AllocateOutcome L o listed now id a L') (e holder : String) :
    a ≠ .error (.exporterHeld e holder) := by
  cases ho with
  | badSelector | outOfRange | noExporter | allLeased => exact nofun
  | claimed _ _ hc _ ho => exact ho.not_held hc.not_blocked e holder

/-- An allocation meets its specification, if the store takes what a claim of a listed exporter
writes. -/
theorem AllocateOutcome.meets (ho : AllocateOutcome L o listed now id a L') (h : L.Consistent)
    (hw : ∀ e ∈ listed, Takes L.store (L.toWrite (o.booking e.id) now id)) :
    AllocationSpec L o listed now id a L' where
  badSelector hs := by
    cases ho with
    | badSelector hs' =>
      rw [hs'] at hs
      cases hs
      exact ⟨⟨_, rfl⟩, rfl, rfl⟩
    | outOfRange hs' | noExporter hs' | allLeased hs' | claimed hs' =>
      rw [hs'] at hs
      cases hs
  outOfRange hs hb := by
    cases ho with
    | badSelector hs' =>
      rw [hs'] at hs
      cases hs
    | outOfRange => exact ⟨rfl, rfl⟩
    | noExporter _ hb' | allLeased _ hb' | claimed _ hb' => exact absurd hb' hb
  noExporter hs hb hno := by
    cases ho with
    | badSelector hs' =>
      rw [hs'] at hs
      cases hs
    | outOfRange _ hb' => exact absurd hb hb'
    | noExporter => exact ⟨rfl, rfl⟩
    | allLeased hs' _ hr =>
      rw [hs'] at hs
      cases hs
      exact absurd hr (hno _)
    | claimed hs' _ hc =>
      rw [hs'] at hs
      cases hs
      exact absurd hc.eligible (hno _)
  allLeased hs hb hex hall := by
    cases ho with
    | badSelector hs' =>
      rw [hs'] at hs
      cases hs
    | outOfRange _ hb' => exact absurd hb hb'
    | noExporter hs' _ hno =>
      rw [hs'] at hs
      cases hs
      obtain ⟨r, hr⟩ := hex
      exact absurd hr (hno r)
    | allLeased => exact ⟨rfl, rfl⟩
    | claimed hs' _ hc =>
      rw [hs'] at hs
      cases hs
      exact absurd (hall _ hc.eligible) hc.not_blocked
  granted hs hb hex := by
    obtain ⟨r', hr', hbl⟩ := hex
    obtain ⟨r, hc, hclaim⟩ := ho.claims_chosen hs hb hr' hbl
    obtain ⟨e, he, rfl, -⟩ := hc.eligible
    obtain rfl := hclaim.ok_of_takes h hb hc.not_blocked (hw e he)
    exact ⟨e.id, _, hc, rfl, hclaim.granted_of_ok h, rfl⟩
  not_held := ho.not_held

/-- A reachable broker whose store takes what it writes answers an order by the first of these that
applies: the selector cannot be read, the length is out of bounds, no exporter is eligible, all that
are eligible are blocked. Otherwise it leases the first eligible exporter that is not blocked, and
all that changes is that the new lease is appended and a holder that is due has expired. Reference:
`LeaseBroker.allocate`, §4.5 and §7. -/
theorem Broker.Reachable.allocate_meets {B : Broker σ} (h : B.Reachable) (o : Order)
    (listed : List Exporter) (now : Instant) (id : String)
    (hw : ∀ e ∈ listed, Takes B.ledger.store (B.ledger.toWrite (o.booking e.id) now id)) :
    AllocationSpec B.ledger o listed now id (B.allocate o listed now id).1
      (B.allocate o listed now id).2.ledger :=
  (allocate_outcome h.consistent o listed now id).meets h.consistent hw

namespace Broker

/-- A board, which may be online. -/
def board (id : String) (online : Bool) : Exporter :=
  ⟨id, KeyMap.ofList [("type", "board")], online⟩

/-- Four boards, of which one cannot be reached, and a camera. -/
def rack : List Exporter :=
  [board "e3" true, board "e1" false, board "e2" true, board "e0" true,
    ⟨"d0", KeyMap.ofList [("type", "camera")], true⟩]

/-- Two boards were leased at once, the first for an hour and the second for a minute. -/
def rackLeases : List Lease :=
  [⟨"a", none, "type=board", "e0", .active, 0, 3600000, 3600000⟩,
    ⟨"b", none, "type=board", "e2", .active, 0, 60000, 60000⟩]

/-- A broker that has loaded the two leases. -/
def rackBroker : Broker MemoryStore where
  settings := {}
  ledger :=
    { bounds := ({} : Settings).bounds
      leases := rackLeases
      index := KeyMap.ofList [("a", 0), ("b", 1)]
      holders := KeyMap.ofList [("e0", "a"), ("e2", "b")]
      store := .ofRecords rackLeases }

/-- An order for any board. -/
def boardOrder : Order := { selector := "type=board", span := .ofSecs 60, name := some "nightly" }

/-- Of one board that is listed an order of a board claims that one. -/
theorem allocate_board (B : Broker σ) (hb : boardOrder.span ∈ B.ledger.bounds) (now : Instant)
    (id : String) :
    B.allocate boardOrder [board "e1" true] now id =
      ((claimFirst B.ledger boardOrder now id [board "e1" true]).1,
      { B with ledger := (claimFirst B.ledger boardOrder now id [board "e1" true]).2 }) := by
  have parsed : Selector.parse boardOrder.selector = .ok ⟨"type=board", [⟨"type", "board"⟩]⟩ := rfl
  have tried : candidates ⟨"type=board", [⟨"type", "board"⟩]⟩ [board "e1" true] =
      [board "e1" true] :=
    List.mergeSort_singleton _
  rw [allocate, parsed]
  simp only [tried, SpanRange.check, if_pos hb]

/-- After a minute the first board is passed over, and the second is taken over. -/
theorem allocate_meets_rack :
    rackBroker.Reachable ∧
    AllocationSpec rackBroker.ledger boardOrder rack 60000 "c"
      (rackBroker.allocate boardOrder rack 60000 "c").1
      (rackBroker.allocate boardOrder rack 60000 "c").2.ledger ∧
    (rackBroker.allocate boardOrder rack 60000 "c").1 =
      .ok ⟨"c", some "nightly", "type=board", "e2", .active, 60000, 60000, 120000⟩ ∧
    (rackBroker.allocate boardOrder rack 60000 "c").2.ledger.leases.map (·.status) =
      [.active, .expired, .active] := by
  have opened : ofStore {} (MemoryStore.ofRecords rackLeases) = .ok rackBroker := rfl
  have reachable : rackBroker.Reachable := .ofStore opened
  have parsed : Selector.parse boardOrder.selector = .ok ⟨"type=board", [⟨"type", "board"⟩]⟩ := rfl
  have tried : candidates ⟨"type=board", [⟨"type", "board"⟩]⟩ rack =
      [board "e0" true, board "e2" true, board "e3" true] := by
    have kept : (rack.filter fun e => e.online &&
        Selector.holds ⟨"type=board", [⟨"type", "board"⟩]⟩ e.labels) =
        [board "e3" true, board "e2" true, board "e0" true] := rfl
    rw [candidates, kept, Exporter.sorted]
    simp [List.mergeSort, board]
  have allocate_eq : rackBroker.allocate boardOrder rack 60000 "c" =
      ((claimFirst rackBroker.ledger boardOrder 60000 "c"
        [board "e0" true, board "e2" true, board "e3" true]).1,
      { rackBroker with ledger := (claimFirst rackBroker.ledger boardOrder 60000 "c"
        [board "e0" true, board "e2" true, board "e3" true]).2 }) := by
    rw [allocate, parsed]
    simp only [tried]
    rfl
  refine ⟨reachable, ?_, ?_, ?_⟩
  · exact reachable.allocate_meets boardOrder rack 60000 "c" fun _ _ => takes_memory _ _
  · rw [allocate_eq]
    rfl
  · rw [allocate_eq]
    rfl

end Broker

end LabLease
