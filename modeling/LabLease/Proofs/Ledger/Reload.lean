import LabLease.Proofs.Ledger.Run
import LabLease.Proofs.Store.Keeping

/-!
# Loading what was written

The records of a consistent ledger can be loaded, and its look-up tables are all that they can be
made into (`Consistent.tables_eq`), so the ledger of its records is the ledger itself
(`Consistent.ofRecords_eq`).

A ledger over a store that keeps records writes through: what the store holds are at any time the
records (`Writes.held`). So it can be dropped, and what is loaded in its place is the same ledger
(`Consistent.ofStore_eq`).
-/

namespace LabLease.Ledger

open LeaseStore

variable {σ τ : Type} {L L' : Ledger σ} {bounds : SpanRange} {store : σ} {records : List Lease}

/-! ## The ledger of the records of a ledger -/

/-- Ledgers with the same records have the same look-up tables. -/
theorem Consistent.tables_eq {M : Ledger τ} (h : L.Consistent) (h' : M.Consistent)
    (hl : M.leases = L.leases) : M.index = L.index ∧ M.holders = L.holders := by
  constructor
  · refine KeyMap.ext_find? fun id => Option.ext fun pos => ?_
    rw [h.index_iff, h'.index_iff, hl]
  · refine KeyMap.ext_find? fun exporter => Option.ext fun id => ?_
    rw [h.holders_iff, h'.holders_iff, hl]

/-- The ledger of the records of a ledger is that ledger, under the bounds and over the store that
it is given. -/
theorem Consistent.ofRecords_eq (h : L.Consistent) (bounds : SpanRange) (store : σ) :
    ofRecords bounds store L.leases = .ok { L with bounds := bounds, store := store } := by
  obtain ⟨M, hM⟩ : ∃ M, ofRecords bounds store L.leases = .ok M := ofRecords_isOk_iff.2 h.loadable
  have hM' : M.Consistent := consistent_ofRecords hM
  rw [hM]
  unfold ofRecords at hM
  split at hM
  · cases hM
  · cases hM
    obtain ⟨rfl, rfl⟩ := h.tables_eq hM' rfl
    rfl

/-! ## Writing through -/

variable [LeaseStore σ] {holds : σ → List Lease → Prop}

/-- After a write a store that keeps records holds the records. -/
theorem Write.held (hk : Keeps holds) (h : L.Consistent) (hh : holds L.store L.leases)
    (hw : Write L L') : holds L'.store L'.leases := by
  cases hw with
  | refused hs => exact hk.refused hh hs
  | closed hl _ _ hs => exact hk.closed hh h.nodup hl hs
  | entered hnew _ _ hs => exact hk.entered hh (h.knows_eq_false_iff.1 hnew) hs

/-- After any number of writes a store that keeps records holds the records. -/
theorem Writes.held (hk : Keeps holds) (h : L.Consistent) (hh : holds L.store L.leases)
    (hw : Writes L L') : holds L'.store L'.leases := by
  induction hw with
  | refl => exact hh
  | tail first hw ih => exact hw.held hk (Writes.consistent h first) ih

/-- A ledger whose store holds its records can be loaded again. -/
theorem Consistent.ofStore_eq (hk : Keeps holds) (h : L.Consistent) (hh : holds L.store L.leases)
    (bounds : SpanRange) : ofStore bounds L.store = .ok { L with bounds := bounds } := by
  rw [ofStore, hk.load hh]
  exact h.ofRecords_eq bounds L.store

end LabLease.Ledger
