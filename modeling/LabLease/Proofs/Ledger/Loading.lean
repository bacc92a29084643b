import LabLease.Proofs.Ledger.Consistent
import LabLease.Store.Rehearsal
import Mathlib.Data.List.Nodup
import Mathlib.Data.List.Pairwise

/-!
# What can be loaded, and what is refused

Records make a ledger if and only if no identifier stands twice and no two open records name one
exporter (`Ledger.Loadable`, `ofRecords_isOk_iff`). Loading goes through the records in order and is
refused for the first that offends those in front of it (`Ledger.FirstOffence`): one of them has its
identifier, or else it is open and one of them holds its exporter (`Ledger.Offends`). A repeated
identifier is looked for first, so it is what a record with both flaws is refused for.

While no record offends, the records so far are those of a consistent ledger, and loading the next
one is entering it (`Consistent.tabulate_cons`). From this, by induction on the records that are
left, loading either ends at the first offence or gives a consistent ledger (`ofRecords_meets`).
`LoadSpec` says what that comes to for the ledger of a store.
-/

namespace LabLease.Ledger

open LeaseStore

variable {σ : Type} {L : Ledger σ} {bounds : SpanRange} {store : σ} {records : List Lease}
  {l : Lease} {flaw : RecordFlaw} {pos : Nat}

/-! ## Records that can be loaded -/

/-- No identifier stands twice, and no two open records name one exporter. -/
structure Loadable (records : List Lease) : Prop where
  nodup : (records.map (·.id)).Nodup
  exclusive : records.Pairwise fun l l' =>
    l.exporter = l'.exporter → l.status.isOver = true ∨ l'.status.isOver = true

/-- Records with distinct identifiers can be loaded if no exporter has two that are open. -/
theorem loadable_of_unique (hn : (records.map (·.id)).Nodup) (hu : ∀ l ∈ records, ∀ l' ∈ records,
    l.exporter = l'.exporter → l.status.isOver = false → l'.status.isOver = false → l = l') :
    Loadable records where
  nodup := hn
  exclusive := by
    refine (List.Nodup.of_map _ hn).pairwise_of_forall_ne fun l hl l' hl' hne he => ?_
    by_contra hboth
    simp only [not_or, Bool.not_eq_true] at hboth
    exact hne (hu l hl l' hl' he hboth.1 hboth.2)

/-- Of records that can be loaded no exporter has two that are open. -/
theorem Loadable.eq_of_exporter {l l' : Lease} (h : Loadable records) (hl : l ∈ records)
    (hl' : l' ∈ records) (he : l.exporter = l'.exporter) (ho : l.status.isOver = false)
    (ho' : l'.status.isOver = false) : l = l' := by
  by_contra hne
  have : Std.Symm fun l l' : Lease =>
      l.exporter = l'.exporter → l.status.isOver = true ∨ l'.status.isOver = true :=
    ⟨fun _ _ hll he => (hll he.symm).symm⟩
  obtain hover | hover := h.exclusive.forall hl hl' hne he
  · rw [ho] at hover
    cases hover
  · rw [ho'] at hover
    cases hover

/-- The records of a consistent ledger can be loaded. -/
theorem Consistent.loadable (h : L.Consistent) : Loadable L.leases :=
  loadable_of_unique h.nodup fun _ hl _ hl' => h.eq_of_exporter hl hl'

/-- What it means that records can be loaded, by the statuses. -/
theorem loadable_iff : Loadable records ↔
    (records.map (·.id)).Nodup ∧
    records.Pairwise fun l l' => (l.status = .pending ∨ l.status = .active) →
      (l'.status = .pending ∨ l'.status = .active) → l.exporter ≠ l'.exporter := by
  simp only [← Status.isOver_eq_false_iff]
  have hiff (l l' : Lease) :
      (l.exporter = l'.exporter → l.status.isOver = true ∨ l'.status.isOver = true) ↔
        (l.status.isOver = false → l'.status.isOver = false → l.exporter ≠ l'.exporter) := by
    cases l.status.isOver <;> cases l'.status.isOver <;> simp
  constructor
  · rintro ⟨hn, he⟩
    exact ⟨hn, he.imp fun {l l'} => (hiff l l').1⟩
  · rintro ⟨hn, he⟩
    exact ⟨hn, he.imp fun {l l'} => (hiff l l').2⟩

/-! ## Records that offend -/

/-- What is wrong with a record that comes behind others. -/
inductive Offends (before : List Lease) (l : Lease) : RecordFlaw → Prop
  /-- An earlier record has its identifier. -/
  | repeatedId (hid : ∃ l' ∈ before, l'.id = l.id) : Offends before l .repeatedId
  /-- Its identifier is new, but it is open, and so is an earlier record of its exporter. -/
  | alsoHeld {holder : Lease} (hid : ∀ l' ∈ before, l'.id ≠ l.id) (ho : l.status.isOver = false)
      (hh : holder ∈ before) (he : holder.exporter = l.exporter)
      (ho' : holder.status.isOver = false) : Offends before l (.alsoHeld l.exporter holder.id)

/-- The record `l` at `pos` offends the records in front of it, and it is the first that does. -/
structure FirstOffence (records : List Lease) (pos : Nat) (l : Lease) (flaw : RecordFlaw) :
    Prop where
  found : records[pos]? = some l
  offends : Offends (records.take pos) l flaw
  first {i : Nat} {l' : Lease} {flaw' : RecordFlaw} (hi : i < pos) (hl' : records[i]? = some l') :
    ¬ Offends (records.take i) l' flaw'

/-- Of records that can be loaded none offends. -/
theorem Loadable.not_offends (h : Loadable records) (hl : records[pos]? = some l) :
    ¬ Offends (records.take pos) l flaw := by
  obtain ⟨hlt, rfl⟩ := List.getElem?_eq_some_iff.1 hl
  rintro (⟨l', hl', hid⟩ | ⟨hnew, ho, hh, he, ho'⟩)
  · have hn := h.nodup
    rw [← List.take_append_drop pos records, List.drop_eq_getElem_cons hlt, List.map_append,
      List.map_cons] at hn
    exact (List.nodup_append.1 hn).2.2 _ (List.mem_map_of_mem hl') _ List.mem_cons_self hid
  · obtain rfl := h.eq_of_exporter (List.mem_of_mem_take hh) (List.getElem_mem hlt) he ho' ho
    exact hnew _ hh rfl

/-- There is at most one first offence, as long as the records in front of it can be loaded. -/
theorem FirstOffence.unique {pos' : Nat} {l' : Lease} {flaw' : RecordFlaw}
    (h : FirstOffence records pos l flaw) (h' : FirstOffence records pos' l' flaw')
    (hload : Loadable (records.take pos)) : l = l' ∧ flaw = flaw' := by
  obtain hlt | rfl | hlt := Nat.lt_trichotomy pos pos'
  · exact absurd h.offends (h'.first hlt h.found)
  · have hl : l = l' := Option.some.inj (h.found.symm.trans h'.found)
    subst hl
    refine ⟨rfl, ?_⟩
    -- The flaw is told by the identifiers, and the holder by what can be loaded so far.
    obtain ⟨l₁, hl₁, hid⟩ | ⟨hnew, -, hh, he, ho⟩ := h.offends
    · obtain - | ⟨hnew'⟩ := h'.offends
      · rfl
      · exact absurd hid (hnew' l₁ hl₁)
    · obtain ⟨l₁, hl₁, hid⟩ | ⟨-, -, hh', he', ho'⟩ := h'.offends
      · exact absurd hid (hnew l₁ hl₁)
      · rw [hload.eq_of_exporter hh hh' (he.trans he'.symm) ho ho']
  · exact absurd h'.offends (h.first hlt h'.found)

/-! ## Loading record by record -/

/-- A record that offends ends the loading; any other is entered, which leaves the tables in
agreement with the records. -/
theorem Consistent.tabulate_cons (h : L.Consistent) (l : Lease) (records : List Lease) :
    (∃ flaw, Offends L.leases l flaw ∧
      tabulate (l :: records) L.leases.length L.index L.holders = .error (.corrupt l.id flaw)) ∨
    (∀ flaw, ¬ Offends L.leases l flaw) ∧ (L.entered l L.store).Consistent ∧
      tabulate (l :: records) L.leases.length L.index L.holders =
        tabulate records (L.entered l L.store).leases.length (L.entered l L.store).index
          (L.entered l L.store).holders := by
  have hlen : (L.entered l L.store).leases.length = L.leases.length + 1 := by
    simp [Ledger.entered]
  rw [tabulate, hlen]
  cases hk : L.index.contains l.id with
  | true =>
    refine .inl ⟨.repeatedId, .repeatedId ?_, if_pos rfl⟩
    by_contra hno
    have hnew : L.knows l.id = false :=
      h.knows_eq_false_iff.2 fun l' hl' hid => hno ⟨l', hl', hid⟩
    rw [knows, hk] at hnew
    cases hnew
  | false =>
    have hnew : ∀ l' ∈ L.leases, l'.id ≠ l.id := h.knows_eq_false_iff.1 hk
    rw [if_neg Bool.false_ne_true]
    cases ho : l.status.isOver with
    | true =>
      refine .inr ⟨?_, h.entered hk (by simp [ho]), by simp [Ledger.entered, ho]⟩
      rintro _ (⟨l', hl', hid⟩ | ⟨-, ho'⟩)
      · exact hnew l' hl' hid
      · rw [ho] at ho'
        cases ho'
    | false =>
      rw [if_neg Bool.false_ne_true]
      cases hf : L.holders.find? l.exporter with
      | some holder =>
        obtain ⟨l', hl', rfl, he, ho'⟩ := h.holders_iff.1 hf
        exact .inl ⟨_, .alsoHeld hnew ho hl' he ho', rfl⟩
      | none =>
        refine .inr ⟨?_, h.entered hk fun _ => hf, by simp [Ledger.entered, ho]⟩
        rintro _ (⟨l', hl', hid⟩ | ⟨-, -, hh, he, ho'⟩)
        · exact hnew l' hl' hid
        · rw [h.isOver_of_find?_eq_none hf hh he] at ho'
          cases ho'

/-- Loading the records that are left ends at the first offence of all, or enters them. -/
theorem Consistent.tabulate_meets : ∀ (records : List Lease) {L : Ledger σ}, L.Consistent →
    (∀ {i : Nat} {l : Lease} {flaw : RecordFlaw}, i < L.leases.length →
      (L.leases ++ records)[i]? = some l → ¬ Offends ((L.leases ++ records).take i) l flaw) →
    (∃ pos l flaw, FirstOffence (L.leases ++ records) pos l flaw ∧
      Loadable ((L.leases ++ records).take pos) ∧
      tabulate records L.leases.length L.index L.holders = .error (.corrupt l.id flaw)) ∨
    ∃ index holders, tabulate records L.leases.length L.index L.holders = .ok (index, holders) ∧
      (⟨L.bounds, L.leases ++ records, index, holders, L.store⟩ : Ledger σ).Consistent
  | [], L, h, _ => by
    rw [List.append_nil]
    exact .inr ⟨_, _, rfl, h⟩
  | l :: records, L, h, hfirst => by
    have hat : (L.leases ++ l :: records)[L.leases.length]? = some l := by simp
    have htake : (L.leases ++ l :: records).take L.leases.length = L.leases := by simp
    obtain ⟨flaw, hoff, ht⟩ | ⟨hsound, hentered, ht⟩ := h.tabulate_cons l records
    · refine .inl ⟨_, l, flaw, ⟨hat, htake.symm ▸ hoff, hfirst⟩, ?_, ht⟩
      rw [htake]
      exact h.loadable
    · have hall : (L.entered l L.store).leases ++ records = L.leases ++ l :: records := by
        simp [Ledger.entered]
      have rest := tabulate_meets records hentered fun {i l' flaw} hi hl' => by
        rw [hall] at hl' ⊢
        have hi' : i ≤ L.leases.length := by
          simpa [Ledger.entered, Nat.lt_succ_iff] using hi
        obtain hlt | rfl := Nat.lt_or_eq_of_le hi'
        · exact hfirst hlt hl'
        · rw [hat] at hl'
          cases hl'
          rw [htake]
          exact hsound flaw
      rwa [hall, ← ht] at rest

/-- Records are refused for their first offence, or make a consistent ledger. -/
theorem ofRecords_meets (bounds : SpanRange) (store : σ) (records : List Lease) :
    (∃ pos l flaw, FirstOffence records pos l flaw ∧ Loadable (records.take pos) ∧
      ofRecords bounds store records = .error (.store (.corrupt l.id flaw))) ∨
    ∃ index holders, ofRecords bounds store records =
        .ok ⟨bounds, records, index, holders, store⟩ ∧
      (⟨bounds, records, index, holders, store⟩ : Ledger σ).Consistent := by
  have h : (blank bounds store).Consistent := consistent_blank
  obtain ⟨pos, l, flaw, hoff, hload, ht⟩ | ⟨index, holders, ht, hc⟩ :=
    h.tabulate_meets records fun hi => absurd hi (Nat.not_lt_zero _)
  · refine .inl ⟨pos, l, flaw, hoff, hload, ?_⟩
    have ht : tabulate records 0 KeyMap.empty KeyMap.empty = .error (.corrupt l.id flaw) := ht
    rw [ofRecords, ht]
  · have ht : tabulate records 0 KeyMap.empty KeyMap.empty = .ok (index, holders) := ht
    exact .inr ⟨index, holders, by rw [ofRecords, ht], hc⟩

/-! ## The ledger of records -/

/-- The ledger of a list of records is consistent. -/
theorem consistent_ofRecords (h : ofRecords bounds store records = .ok L) : L.Consistent := by
  obtain ⟨pos, l, flaw, -, -, herr⟩ | ⟨index, holders, hok, hc⟩ :=
    ofRecords_meets bounds store records
  · rw [herr] at h
    cases h
  · rw [hok] at h
    cases h
    exact hc

/-- It has these records, in order, and the store that it was given. -/
theorem kept_of_ofRecords (h : ofRecords bounds store records = .ok L) :
    L.bounds = bounds ∧ L.leases = records ∧ L.store = store := by
  unfold ofRecords at h
  split at h
  · cases h
  · cases h
    exact ⟨rfl, rfl, rfl⟩

/-- Records make a ledger exactly if they can be loaded. -/
theorem ofRecords_isOk_iff :
    (∃ L, ofRecords bounds store records = .ok L) ↔ Loadable records := by
  constructor
  · rintro ⟨L, h⟩
    rw [← (kept_of_ofRecords h).2.1]
    exact (consistent_ofRecords h).loadable
  · intro hload
    obtain ⟨pos, l, flaw, hoff, -, -⟩ | ⟨index, holders, hok, -⟩ :=
      ofRecords_meets bounds store records
    · exact absurd hoff.offends (hload.not_offends hoff.found)
    · exact ⟨_, hok⟩

/-! ## The ledger of a store -/

/-- What should come of loading a store that gives these records. -/
structure LoadSpec (bounds : SpanRange) (store : σ) (records : List Lease)
    (a : Except Failure (Ledger σ)) : Prop where
  /-- There is a ledger exactly if no identifier stands twice and no two records that are pending or
  active name one exporter. -/
  ok_iff : (∃ L, a = .ok L) ↔
    (records.map (·.id)).Nodup ∧
    records.Pairwise fun l l' => (l.status = .pending ∨ l.status = .active) →
      (l'.status = .pending ∨ l'.status = .active) → l.exporter ≠ l'.exporter
  /-- Its records are those of the store, in order, and the store is as it was. -/
  kept {L : Ledger σ} (h : a = .ok L) : L.bounds = bounds ∧ L.leases = records ∧ L.store = store
  /-- Otherwise the first record that offends is named, with its flaw. -/
  error_iff {f : Failure} : a = .error f ↔
    ∃ pos l flaw, FirstOffence records pos l flaw ∧ f = .store (.corrupt l.id flaw)

variable [LeaseStore σ]

/-- The ledger of a store is that of the records that the store gives. -/
theorem ofRecords_of_ofStore (h : ofStore bounds store = .ok L) :
    ∃ records, load store = .ok records ∧ ofRecords bounds store records = .ok L := by
  unfold ofStore at h
  split at h
  · cases h
  · next hload => exact ⟨_, hload, h⟩

/-- A ledger that was loaded from a store is consistent. -/
theorem consistent_ofStore (h : ofStore bounds store = .ok L) : L.Consistent := by
  obtain ⟨records, -, hL⟩ := ofRecords_of_ofStore h
  exact consistent_ofRecords hL

/-- It has the bounds that it was given, is kept in the store, and its records are what the store
gives. -/
theorem kept_of_ofStore (h : ofStore bounds store = .ok L) :
    L.bounds = bounds ∧ L.store = store ∧ load L.store = .ok L.leases := by
  obtain ⟨records, hload, hL⟩ := ofRecords_of_ofStore h
  obtain ⟨hbounds, rfl, rfl⟩ := kept_of_ofRecords hL
  exact ⟨hbounds, rfl, hload⟩

/-- What a store gives is loaded exactly if its identifiers are distinct and no exporter has two
open records; the ledger then has these records in their order. Otherwise the first record that
offends is named, for its identifier rather than for its exporter. The store is only read.
Reference: `LeaseLedger.with_store`, §14. -/
theorem ofStore_meets (bounds : SpanRange) (h : load store = .ok records) :
    LoadSpec bounds store records (ofStore bounds store) := by
  have hof : ofStore bounds store = ofRecords bounds store records := by rw [ofStore, h]
  rw [hof]
  refine ⟨ofRecords_isOk_iff.trans loadable_iff, kept_of_ofRecords, fun {f} => ?_⟩
  obtain ⟨pos, l, flaw, hoff, hload, herr⟩ | ⟨index, holders, hok, hc⟩ :=
    ofRecords_meets bounds store records
  · rw [herr]
    constructor
    · rintro ⟨⟩
      exact ⟨pos, l, flaw, hoff, rfl⟩
    · rintro ⟨pos', l', flaw', hoff', rfl⟩
      obtain ⟨rfl, rfl⟩ := hoff.unique hoff' hload
      rfl
  · rw [hok]
    constructor
    · exact nofun
    · rintro ⟨pos, l, flaw, hoff, -⟩
      exact absurd hoff.offends (hc.loadable.not_offends hoff.found)

/-- Five records: the third repeats an identifier and names an exporter that the first holds, so
that it has both flaws; the fourth is over, and the fifth names that exporter too. -/
def muddle : List Lease :=
  [⟨"a", none, "", "e1", .pending, 0, 60000, 60000⟩,
    ⟨"b", none, "", "e1", .expired, 0, 60000, 60000⟩,
    ⟨"b", none, "", "e1", .active, 0, 60000, 60000⟩,
    ⟨"c", none, "", "e1", .released, 0, 60000, 60000⟩,
    ⟨"d", none, "", "e1", .active, 0, 60000, 60000⟩]

/-- The muddle is refused for the identifier of its third record. Without that record it is refused
for the exporter of the last one, and without the last one too it is a ledger. -/
theorem ofStore_meets_muddle :
    load (⟨"shelf", muddle⟩ : FixedStore) = .ok muddle ∧
    LoadSpec ⟨.ofSecs 60, .ofSecs 3600⟩ (⟨"shelf", muddle⟩ : FixedStore) muddle
      (ofStore ⟨.ofSecs 60, .ofSecs 3600⟩ ⟨"shelf", muddle⟩) ∧
    ofStore ⟨.ofSecs 60, .ofSecs 3600⟩ (⟨"shelf", muddle⟩ : FixedStore) =
      .error (.store (.corrupt "b" .repeatedId)) ∧
    ofStore ⟨.ofSecs 60, .ofSecs 3600⟩ (⟨"shelf", muddle.eraseIdx 2⟩ : FixedStore) =
      .error (.store (.corrupt "d" (.alsoHeld "e1" "a"))) ∧
    ∃ L, ofStore ⟨.ofSecs 60, .ofSecs 3600⟩ (⟨"shelf", (muddle.eraseIdx 2).take 3⟩ : FixedStore) =
        .ok L ∧ L.holders.find? "e1" = some "a" := by
  have given : load (⟨"shelf", muddle⟩ : FixedStore) = .ok muddle := rfl
  exact ⟨given, ofStore_meets _ given, rfl, rfl, _, rfl, rfl⟩

end LabLease.Ledger
