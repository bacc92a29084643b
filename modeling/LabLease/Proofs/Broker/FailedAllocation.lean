import LabLease.Proofs.Broker.Allocation

/-!
# What a failed allocation leaves behind

A failed allocation should leave everything as it was (`Ledger.Unchanged`). It does, over a careful
store, with one exception: the chosen exporter has a due holder, the store takes its expiry, and
then refuses the new lease (`CutShort`). The expiry is not taken back, neither in the ledger nor in
the store. `Broker.Reachable.failed_allocate_unchanged_iff` says that this is the only exception.
-/

namespace LabLease

open LeaseStore

variable {σ : Type} [LeaseStore σ] {L L' : Ledger σ} {o : Order} {listed : List Exporter}
  {now : Instant} {id : String} {a : Except Failure Lease}

/-- Records and tables are the same, and the store is read as before. -/
structure Ledger.Unchanged (L L' : Ledger σ) : Prop where
  leases : L'.leases = L.leases
  index : L'.index = L.index
  holders : L'.holders = L.holders
  load : load L'.store = load L.store

/-- Nothing has changed where nothing was done. -/
theorem Ledger.Unchanged.refl (L : Ledger σ) : L.Unchanged L := ⟨rfl, rfl, rfl, rfl⟩

/-- A careful store that refuses a record has changed nothing. -/
theorem Ledger.Unchanged.of_refusal (hc : Careful σ) {l : Lease} {fault : StoreFault} {s : σ}
    (hs : save L.store l = (.error fault, s)) : L.Unchanged { L with store := s } :=
  ⟨rfl, rfl, rfl, hc hs⟩

/-- Of the two writes by which the chosen exporter is taken over from a due holder, the store takes
the first and refuses the second. -/
def CutShort (L : Ledger σ) (o : Order) (listed : List Exporter) (now : Instant) (id : String) :
    Prop :=
  ∃ s r l, Selector.parse o.selector = .ok s ∧ o.span ∈ L.bounds ∧ Chosen L s listed now r ∧
    l ∈ L.leases ∧ l.exporter = r ∧ l.isDue now = true ∧
    Takes L.store [{ l with status := .expired }] ∧
    ¬ Takes L.store [{ l with status := .expired }, (o.booking r).lease now id]

/-- An allocation that is cut short fails, and has closed the record of the due holder. -/
theorem AllocateOutcome.of_cutShort (ho : AllocateOutcome L o listed now id a L')
    (h : L.Consistent) (hcut : CutShort L o listed now id) :
    ∃ pos l fault s, L.leases[pos]? = some l ∧ l.isDue now = true ∧
      a = .error (.store fault) ∧ L' = L.closed pos l .expired s := by
  obtain ⟨s, r, l, hs, hb, hch, hl, he, hd, htakes, hrefuses⟩ := hcut
  obtain ⟨r', hch', hclaim⟩ := ho.claims_chosen hs hb hch.eligible hch.not_blocked
  obtain rfl := hch.eq hch'
  -- The due holder is the only open record of the exporter, so the claim has met it.
  have same {pos : Nat} {l' : Lease} (hl' : L.leases[pos]? = some l') (he' : l'.exporter = r)
      (hd' : l'.isDue now = true) : l' = l :=
    h.eq_of_exporter (List.mem_of_getElem? hl') hl (he'.trans he.symm)
      (Ledger.isOver_of_isDue hd') (Ledger.isOver_of_isDue hd)
  cases hclaim with
  | outOfRange hb' => exact absurd hb hb'
  | held _ hl' he' ho' hd' =>
    exact absurd ⟨_, List.mem_of_getElem? hl', he', ho', hd'⟩ hch.not_blocked
  | stuck _ hl' he' hd' hs' =>
    obtain rfl := same hl' he' hd'
    exact absurd htakes (not_takes_of_error hs')
  | cutShort _ hl' he' hd' hs' hs'' => exact ⟨_, _, _, _, hl', hd', rfl, rfl⟩
  | takeover _ hl' he' hd' hs' hs'' =>
    obtain rfl := same hl' he' hd'
    rw [takes_cons_of_ok hs', takes_cons_of_ok hs''] at hrefuses
    exact absurd trivial hrefuses
  | refused _ hf | granted _ hf =>
    have hover := h.isOver_of_find?_eq_none hf hl he
    rw [Ledger.isOver_of_isDue hd] at hover
    cases hover

/-- An allocation that fails and is not cut short changes nothing. -/
theorem AllocateOutcome.unchanged {f : Failure} (hc : Careful σ)
    (ho : AllocateOutcome L o listed now id (.error f) L')
    (hcut : ¬ CutShort L o listed now id) : L.Unchanged L' := by
  cases ho with
  | badSelector | outOfRange | noExporter | allLeased => exact .refl L
  | claimed hs hb hch _ ho =>
    cases ho with
    | outOfRange | held => exact .refl L
    | stuck _ _ _ _ hs' | refused _ _ hs' => exact .of_refusal hc hs'
    | cutShort _ hl he hd hs' hs'' =>
      refine absurd ⟨_, _, _, hs, hb, hch, List.mem_of_getElem? hl, he, hd, ?_, ?_⟩ hcut
      · exact (takes_cons_of_ok hs').2 trivial
      · rw [takes_cons_of_ok hs']
        exact not_takes_of_error hs''

/-- A ledger in which a due record was expired is not the same. -/
theorem Ledger.not_unchanged_closed {pos : Nat} {l : Lease} {s : σ}
    (hl : L.leases[pos]? = some l) (hd : l.isDue now = true) :
    ¬ L.Unchanged (L.closed pos l .expired s) := by
  intro hun
  obtain ⟨hlt, heq⟩ := List.getElem?_eq_some_iff.1 hl
  have hset : (L.leases.set pos { l with status := .expired })[pos]? = some l := by
    rw [← hl]
    exact congrArg (·[pos]?) hun.leases
  rw [List.getElem?_set_self hlt] at hset
  have hstatus : Status.expired = l.status := congrArg Lease.status (Option.some.inj hset)
  rw [(Lease.isDue_iff.1 hd).1] at hstatus
  cases hstatus

/-- A failed allocation over a careful store changes nothing, unless it is cut short between two
writes. Reference: `LeaseLedger.claim`, §7 and §12. -/
theorem Broker.Reachable.failed_allocate_unchanged_iff {B : Broker σ} (h : B.Reachable)
    (hc : Careful σ) {f : Failure} (hf : (B.allocate o listed now id).1 = .error f) :
    B.ledger.Unchanged (B.allocate o listed now id).2.ledger ↔
      ¬ CutShort B.ledger o listed now id := by
  have ho := allocate_outcome h.consistent o listed now id
  constructor
  · intro hun hcut
    obtain ⟨pos, l, fault, s, hl, hd, -, heq⟩ := ho.of_cutShort h.consistent hcut
    rw [heq] at hun
    exact Ledger.not_unchanged_closed hl hd hun
  · intro hcut
    rw [hf] at ho
    exact ho.unchanged hc hcut

namespace Broker

/-- The board is the only candidate for an order of a board. -/
theorem allocate_withLease (l : Lease) (store : σ) (now : Instant) :
    (withLease l store).allocate boardOrder [board "e1" true] now "b" =
      ((claimFirst (withLease l store).ledger boardOrder now "b" [board "e1" true]).1,
      { withLease l store with ledger :=
        (claimFirst (withLease l store).ledger boardOrder now "b" [board "e1" true]).2 }) := by
  have allowed : boardOrder.span ∈ ({} : Settings).bounds := by decide
  exact allocate_board (withLease l store) allowed now "b"

/-- A table takes the expiry, and then not the new lease, whose times are too large for it. -/
theorem failed_allocate_unchanged_iff_table :
    let B := withLease minuteLease (TableStore.mk ":memory:" ⟨[Row.ofLease minuteLease]⟩ false)
    let late : Instant := 9223372036854775808
    B.Reachable ∧ Careful TableStore ∧
    (B.allocate boardOrder [board "e1" true] late "b").1 =
      .error (.store (.backend .numberTooLarge)) ∧
    (B.ledger.Unchanged (B.allocate boardOrder [board "e1" true] late "b").2.ledger ↔
      ¬ CutShort B.ledger boardOrder [board "e1" true] late "b") ∧
    CutShort B.ledger boardOrder [board "e1" true] late "b" := by
  intro B late
  have reachable : B.Reachable := reachable_withLease rfl rfl
  have answer : (B.allocate boardOrder [board "e1" true] late "b").1 =
      .error (.store (.backend .numberTooLarge)) := by
    rw [allocate_withLease]
    rfl
  have changed :
      ¬ B.ledger.Unchanged (B.allocate boardOrder [board "e1" true] late "b").2.ledger := by
    intro hun
    have hleases := hun.leases
    rw [allocate_withLease] at hleases
    exact absurd hleases (by decide)
  have iff := reachable.failed_allocate_unchanged_iff careful_table answer
  refine ⟨reachable, careful_table, answer, iff, Classical.byContradiction fun hcut => ?_⟩
  exact changed (iff.2 hcut)

/-- A store that keeps its records in memory, and fails from the second write on. -/
def failingStore : FaultyStore MemoryStore where
  label := "flaky"
  inner := .ofRecords [minuteLease]
  faultAt n := if n < 1 then none else some (.device "disk full")

/-- An allocation that fails may have expired a lease, in the ledger and in the store. -/
theorem failed_allocate_expires_holder :
    let B := withLease minuteLease failingStore
    let L' := (B.allocate boardOrder [board "e1" true] 60000 "b").2.ledger
    B.Reachable ∧ B.ledger.knows "b" = false ∧ Careful (FaultyStore MemoryStore) ∧
    (B.allocate boardOrder [board "e1" true] 60000 "b").1 =
      .error (.store (.device "disk full")) ∧
    B.ledger.leases = [minuteLease] ∧ L'.leases = [{ minuteLease with status := .expired }] ∧
    load B.ledger.store = .ok [minuteLease] ∧
    load L'.store = .ok [{ minuteLease with status := .expired }] ∧
    ¬ B.ledger.Unchanged L' := by
  intro B L'
  have leases' : L'.leases = [{ minuteLease with status := .expired }] := by
    simp only [L', B, allocate_withLease]
    rfl
  refine ⟨reachable_withLease rfl rfl, by decide, careful_faulty careful_memory, ?_, rfl, leases',
    rfl, ?_, ?_⟩
  · simp only [B, allocate_withLease]
    rfl
  · simp only [L', B, allocate_withLease]
    rfl
  · intro hun
    have same : L'.leases = B.ledger.leases := hun.leases
    rw [leases'] at same
    exact absurd same (by decide)

end Broker

end LabLease
