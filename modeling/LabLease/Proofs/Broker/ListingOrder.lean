import LabLease.Proofs.Broker.Listing

/-!
# The order in which a registry lists exporters

A broker goes through what its registry lists, and claims one exporter after the other until one is
free, so what it does could hang on the order of the listing. It does not if no identifier is listed
twice: candidates and listings of exporters are sorted by identifier, and exporters with distinct
identifiers can be sorted in one way only (`Exporter.sorted_eq_of_perm`); a listing of leases looks
exporters up in a map, in which the order is lost (`KeyMap.ofList_eq_of_perm`). Main statement:
`Broker.answers_eq_of_perm`. Where an identifier is listed twice, the order does matter.
-/

namespace LabLease

/-! ## What forgets the order of a list -/

/-- A map of entries with distinct keys does not tell in which order they were put in. -/
theorem KeyMap.ofList_eq_of_perm {α : Type} {es es' : List (String × α)} (hp : es.Perm es')
    (hd : (es.map (·.1)).Nodup) : ofList es = ofList es' := by
  have hd' : (es'.map (·.1)).Nodup := (hp.map _).nodup_iff.1 hd
  refine ext_find? fun k => Option.ext fun v => ?_
  rw [find?_ofList_eq_some_iff hd, find?_ofList_eq_some_iff hd', hp.mem_iff]

/-- Distinct identifiers can be put in ascending order in one way only. -/
theorem Exporter.sorted_eq_of_perm {es es' : List Exporter} (hp : es.Perm es')
    (hd : (es.map (·.id)).Nodup) : sorted es = sorted es' := by
  have perm : (sorted es).Perm (sorted es') :=
    (sorted_perm es).trans (hp.trans (sorted_perm es').symm)
  refine perm.eq_of_pairwise (fun a b ha hb hab hba => ?_) (pairwise_sorted es)
    (pairwise_sorted es')
  have same : a.id = b.id := String.le_antisymm hab hba
  exact List.inj_on_of_nodup_map hd (mem_sorted.1 ha) (hp.mem_iff.2 (mem_sorted.1 hb)) same

/-- So can those of them that are selected. -/
theorem Exporter.sorted_filter_eq_of_perm {es es' : List Exporter} (hp : es.Perm es')
    (hd : (es.map (·.id)).Nodup) (p : Exporter → Bool) :
    sorted (es.filter p) = sorted (es'.filter p) :=
  sorted_eq_of_perm (hp.filter p) (hd.sublist (List.filter_sublist.map _))

variable {σ : Type} {listed listed' : List Exporter}

/-! ## Brokers -/

/-- The exporters that an order may be filled with are tried in the same order. -/
theorem Broker.candidates_eq_of_perm (hp : listed.Perm listed') (hd : (listed.map (·.id)).Nodup)
    (s : Selector) : candidates s listed = candidates s listed' :=
  Exporter.sorted_filter_eq_of_perm hp hd _

/-- A selector selects the same leases. -/
theorem Ledger.list_eq_of_perm (hp : listed.Perm listed') (hd : (listed.map (·.id)).Nodup)
    (L : Ledger σ) (s : Selector) : L.list s listed = L.list s listed' := by
  have distinct : ((listed.map fun e => (e.id, s.holds e.labels)).map (·.1)).Nodup := by
    rw [List.map_map]
    exact hd
  rw [list, list, KeyMap.ofList_eq_of_perm (hp.map _) distinct]

variable [LeaseStore σ]

/-- A broker cannot tell two listings from each other: whatever it is asked, its answer is the same,
and so is what it leaves behind where it may change. -/
structure Broker.Indifferent (B : Broker σ) (listed listed' : List Exporter) (now : Instant) :
    Prop where
  /-- The answer to an order and the broker afterwards, with its ledger and its store. -/
  allocate (o : Order) (id : String) : B.allocate o listed now id = B.allocate o listed' now id
  /-- Listings of leases. -/
  list (selector : Option String) : B.list selector listed now = B.list selector listed' now
  /-- Listings of exporters, with whatever they are to contain. -/
  exporters (q : ExporterQuery) : B.exporters q listed now = B.exporters q listed' now
  /-- The summary. -/
  summary : B.summary listed now = B.summary listed' now

/-- Two listings of the same exporters, without one twice, are all the same to every broker at any
time. Reference: `LeaseBroker.allocate`, §4.5. -/
theorem Broker.answers_eq_of_perm (B : Broker σ) (hp : listed.Perm listed')
    (hd : (listed.map (·.id)).Nodup) (now : Instant) : B.Indifferent listed listed' now where
  allocate o id := by
    unfold Broker.allocate
    simp only [candidates_eq_of_perm hp hd]
  list selector := by
    unfold Broker.list
    simp only [Ledger.list_eq_of_perm hp hd]
  exporters q := by
    unfold Broker.exporters
    simp only [Exporter.sorted_filter_eq_of_perm hp hd]
  summary := by rw [Broker.summary, Broker.summary, hp.length_eq]

namespace Broker

/-- Two boards, the second in front. -/
def pair : List Exporter := [board "e2" true, board "e1" true]

/-- The first board is held by a lease that is due, and is claimed whichever of the two is listed
first. Listings show both boards in one order. -/
theorem answers_eq_reversed :
    let B := withLease minuteLease (MemoryStore.ofRecords [minuteLease])
    pair.Perm pair.reverse ∧ (pair.map (·.id)).Nodup ∧ B.Indifferent pair pair.reverse 60000 ∧
    (B.allocate boardOrder pair 60000 "b").1 =
      .ok ⟨"b", some "nightly", "type=board", "e1", .active, 60000, 60000, 120000⟩ ∧
    B.allocate boardOrder pair.reverse 60000 "b" = B.allocate boardOrder pair 60000 "b" ∧
    B.exporters {} pair.reverse 60000 = B.exporters {} pair 60000 := by
  intro B
  have perm : pair.Perm pair.reverse := (List.reverse_perm pair).symm
  have distinct : (pair.map (·.id)).Nodup := by decide
  have same : B.Indifferent pair pair.reverse 60000 := answers_eq_of_perm B perm distinct 60000
  have parsed : Selector.parse boardOrder.selector = .ok ⟨"type=board", [⟨"type", "board"⟩]⟩ := rfl
  have tried : candidates ⟨"type=board", [⟨"type", "board"⟩]⟩ pair =
      [board "e1" true, board "e2" true] := by
    have kept : (pair.filter fun e => e.online &&
        Selector.holds ⟨"type=board", [⟨"type", "board"⟩]⟩ e.labels) = pair := rfl
    rw [candidates, kept, Exporter.sorted]
    simp [List.mergeSort, board, pair]
  refine ⟨perm, distinct, same, ?_, (same.allocate _ _).symm, (same.exporters _).symm⟩
  rw [allocate, parsed]
  simp only [tried]
  rfl

/-- If a board is listed twice, once with labels and once without, the order matters. -/
example :
    let B := withLease minuteLease (MemoryStore.ofRecords [minuteLease])
    let twins : List Exporter := [board "e1" true, { id := "e1" }]
    B.list (some "type=board") twins 0 = .ok [] ∧
    B.list (some "type=board") twins.reverse 0 = .ok [minuteLease] := by
  decide

end Broker

end LabLease
