import LabLease.Proofs.Ledger.History
import LabLease.Proofs.Ledger.Reload

/-!
# Ledgers over a store that others write to

A ledger loads the rows of its store once and reads them no more. If others write to the store too,
it is left behind: a record may still be open whose row has ended meanwhile, and there may be rows
of which it has no record. It stays a copy in that each of its records has its row, which has
everything in common with it but the end (`Ledger.Copies`).

Whatever such a ledger writes, it replaces rows of its own open records by ended ones, or appends a
row (`Ledger.Changes`, `Writes.changes`). Nothing else becomes of the rows, as long as the
identifiers of new leases are new to the store as well (`Ledger.Fresh`).
-/

namespace LabLease.Ledger

open LeaseStore

variable {σ : Type} {L L₁ L' : Ledger σ} {rows rows₁ rows' : List Lease} {l r : Lease} {pos : Nat}

/-- Each record of a ledger has a row, which is the same or has ended. -/
structure Copies (L : Ledger σ) (rows : List Lease) : Prop where
  consistent : L.Consistent
  row {l : Lease} (hl : l ∈ L.leases) :
    ∃ status : Status, { l with status := status } ∈ rows ∧
      (status = l.status ∨ status.isOver = true)

/-- What is recorded in `L'` and not in `L` is no row. -/
def Fresh (L L' : Ledger σ) (rows : List Lease) : Prop :=
  ∀ l ∈ L'.leases, (∀ l₀ ∈ L.leases, l₀.id ≠ l.id) → ∀ r ∈ rows, r.id ≠ l.id

/-- What becomes of the rows when a ledger writes to them, and so becomes another. -/
structure Changes (L L' : Ledger σ) (rows rows' : List Lease) : Prop where
  nodup : (rows'.map (·.id)).Nodup
  copies : L'.Copies rows'
  /-- The ledger forgets no lease. -/
  kept {l : Lease} (hl : l ∈ L.leases) : ∃ l' ∈ L'.leases, l'.id = l.id
  /-- A row stays in its place, and at most ends, if it is recorded as open. -/
  row {pos : Nat} {r : Lease} (hr : rows[pos]? = some r) :
    ∃ status : Status, rows'[pos]? = some { r with status := status } ∧
      (status = r.status ∨
        status.isOver = true ∧ ∃ l ∈ L.leases, l.id = r.id ∧ l.status.isOver = false)
  /-- New rows are recorded. -/
  known {r : Lease} (hr : r ∈ rows') : (∃ r₀ ∈ rows, r₀.id = r.id) ∨ ∃ l ∈ L'.leases, l.id = r.id

/-- Rows that stay in their places and at most end are still the rows of what they were. -/
theorem Copies.row_of_ended (hc : L.Copies rows)
    (hrow : ∀ (pos : Nat) (r : Lease), rows[pos]? = some r → ∃ status : Status,
      rows'[pos]? = some { r with status := status } ∧
        (status = r.status ∨ status.isOver = true)) (hl : l ∈ L.leases) :
    ∃ status : Status, { l with status := status } ∈ rows' ∧
      (status = l.status ∨ status.isOver = true) := by
  obtain ⟨st, hr, hst⟩ := hc.row hl
  obtain ⟨pos, hpos⟩ := List.mem_iff_getElem?.1 hr
  obtain ⟨st', hr', rfl | hover⟩ := hrow pos _ hpos
  · exact ⟨_, List.mem_of_getElem? hr', hst⟩
  · exact ⟨st', List.mem_of_getElem? hr', .inr hover⟩

/-- Of an open row that a ledger knows it has the record. -/
theorem Copies.eq_of_open (hc : L.Copies rows) (hn : (rows.map (·.id)).Nodup) (hr : r ∈ rows)
    (ho : r.status.isOver = false) (hl : l ∈ L.leases) (hid : l.id = r.id) : l = r := by
  obtain ⟨status, hrow, hst⟩ := hc.row hl
  obtain rfl := List.inj_on_of_nodup_map hn hrow hr hid
  obtain rfl | hover := hst
  · rfl
  · rw [hover] at ho
    cases ho

/-- Records that are closed, or new ones, do not make a ledger forget. -/
theorem Grows.kept (hg : L.Grows L') (hl : l ∈ L.leases) : ∃ l' ∈ L'.leases, l'.id = l.id := by
  obtain ⟨pos, hpos⟩ := List.mem_iff_getElem?.1 hl
  obtain ⟨l', hl', rfl | ⟨-, status, -, rfl⟩⟩ := hg hpos
  · exact ⟨l', List.mem_of_getElem? hl', rfl⟩
  · exact ⟨_, List.mem_of_getElem? hl', rfl⟩

/-- An open record that was there before was open. -/
theorem Grows.mem_of_open (hg : L.Grows L') (h : L'.Consistent) (hl : l ∈ L'.leases)
    (ho : l.status.isOver = false) {l₀ : Lease} (hl₀ : l₀ ∈ L.leases) (hid : l₀.id = l.id) :
    l ∈ L.leases := by
  obtain ⟨pos, hpos⟩ := List.mem_iff_getElem?.1 hl₀
  obtain ⟨l', hl', hb⟩ := hg hpos
  have same : l' = l := by
    refine h.eq_of_id (List.mem_of_getElem? hl') hl ?_
    obtain rfl | ⟨-, status, -, rfl⟩ := hb <;> exact hid
  obtain rfl | ⟨-, status, hover, rfl⟩ := hb
  · exact same ▸ hl₀
  · rw [← same, hover] at ho
    cases ho

/-- Nothing is written. -/
theorem Copies.unchanged (hc : L.Copies rows) (hn : (rows.map (·.id)).Nodup) (store : σ) :
    Changes L { L with store := store } rows rows where
  nodup := hn
  copies := ⟨hc.consistent.withStore store, hc.row⟩
  kept hl := ⟨_, hl, rfl⟩
  row {_ r} hr := ⟨r.status, hr, .inl rfl⟩
  known hr := .inl ⟨_, hr, rfl⟩

/-- One thing after the other. -/
theorem Changes.trans (h : Changes L L₁ rows rows₁) (h' : Changes L₁ L' rows₁ rows')
    (hg : L.Grows L₁) (hf : Fresh L L₁ rows) : Changes L L' rows rows' where
  nodup := h'.nodup
  copies := h'.copies
  kept hl := by
    obtain ⟨l₁, hl₁, hid⟩ := h.kept hl
    obtain ⟨l', hl', hid'⟩ := h'.kept hl₁
    exact ⟨l', hl', hid'.trans hid⟩
  row {pos r} hr := by
    obtain ⟨st₁, hr₁, hst₁⟩ := h.row hr
    obtain ⟨st, hr', hst⟩ := h'.row hr₁
    refine ⟨st, hr', ?_⟩
    obtain rfl | ⟨hover, l, hl, hid, ho⟩ := hst
    · exact hst₁
    · -- The row is not new, so neither is its record, which was open all the time.
      refine .inr ⟨hover, l, ?_, hid, ho⟩
      by_contra hnew
      refine hf l hl (fun l₀ hl₀ hid₀ => ?_) r (List.mem_of_getElem? hr) hid.symm
      exact hnew (hg.mem_of_open h.copies.consistent hl ho hl₀ hid₀)
  known hr := by
    obtain ⟨r₁, hr₁, hid⟩ | hl := h'.known hr
    · obtain ⟨r₀, hr₀, hid₀⟩ | ⟨l, hl, hidl⟩ := h.known hr₁
      · exact .inl ⟨r₀, hr₀, hid₀.trans hid⟩
      · obtain ⟨l', hl', hid'⟩ := h'.kept hl
        exact .inr ⟨l', hl', hid'.trans (hidl.trans hid)⟩
    · exact .inr hl

/-- What is new to all rows in the end is new to them before. -/
theorem Fresh.of_grows (hf : Fresh L L' rows) (hg : L₁.Grows L') : Fresh L L₁ rows := by
  intro l hl hnew r hr
  obtain ⟨l', hl', hid⟩ := hg.kept hl
  rw [← hid] at hnew ⊢
  exact hf l' hl' hnew r hr

/-- After the first of some changes, what will be recorded is still new to the rows. -/
theorem Changes.fresh (h : Changes L L₁ rows rows₁) (hf : Fresh L L' rows) : Fresh L₁ L' rows₁ := by
  intro l hl hnew r hr hid
  obtain ⟨r₀, hr₀, hid₀⟩ | ⟨l₁, hl₁, hid₁⟩ := h.known hr
  · refine hf l hl (fun l₀ hl₀ hid' => ?_) r₀ hr₀ (hid₀.trans hid)
    obtain ⟨l₁, hl₁, hid₁⟩ := h.kept hl₀
    exact hnew l₁ hl₁ (hid₁.trans hid')
  · exact hnew l₁ hl₁ (hid₁.trans hid)

/-- An open row is an old one, or a new one that is recorded. -/
theorem Changes.mem_or_new (h : Changes L L' rows rows') (hr : r ∈ rows')
    (ho : r.status.isOver = false) :
    r ∈ rows ∨ r ∈ L'.leases ∧ ∀ r₀ ∈ rows, r₀.id ≠ r.id := by
  by_cases hold : ∃ r₀ ∈ rows, r₀.id = r.id
  · obtain ⟨r₀, hr₀, hid⟩ := hold
    obtain ⟨pos, hpos⟩ := List.mem_iff_getElem?.1 hr₀
    obtain ⟨st, hr', hst⟩ := h.row hpos
    obtain rfl := List.inj_on_of_nodup_map h.nodup hr (List.mem_of_getElem? hr') hid.symm
    obtain rfl | ⟨hover, -⟩ := hst
    · exact .inl hr₀
    · rw [hover] at ho
      cases ho
  · obtain ⟨l, hl, hid⟩ := (h.known hr).resolve_left hold
    obtain rfl := h.copies.eq_of_open h.nodup hr ho hl hid
    exact .inr ⟨hl, fun r₀ hr₀ hid => hold ⟨r₀, hr₀, hid⟩⟩

/-- An open row that was recorded is recorded. -/
theorem Changes.mem_of_kept (h : Changes L L' rows rows') (hr : r ∈ rows')
    (ho : r.status.isOver = false) (hl : l ∈ L.leases) (hid : l.id = r.id) : r ∈ L'.leases := by
  obtain ⟨l', hl', hid'⟩ := h.kept hl
  exact h.copies.eq_of_open h.nodup hr ho hl' (hid'.trans hid) ▸ hl'

/-! ## One write -/

/-- A record and its row are closed. -/
theorem Copies.changes_closed {status st : Status} {store : σ} {i : Nat} (hc : L.Copies rows)
    (hn : (rows.map (·.id)).Nodup) (hl : L.leases[pos]? = some l) (ho : l.status.isOver = false)
    (hs : status.isOver = true) (hr : rows[i]? = some { l with status := st }) :
    Changes L (L.closed pos l status store) rows (rows.set i { l with status := status }) := by
  obtain ⟨hlt, -⟩ := List.getElem?_eq_some_iff.1 hr
  have same : (rows.set i { l with status := status }).map (·.id) = rows.map (·.id) :=
    map_id_set hr rfl
  have row {j : Nat} {r : Lease} (hj : rows[j]? = some r) : ∃ st : Status,
      (rows.set i { l with status := status })[j]? = some { r with status := st } ∧
        (st = r.status ∨
          st.isOver = true ∧ ∃ l ∈ L.leases, l.id = r.id ∧ l.status.isOver = false) := by
    by_cases hij : i = j
    · subst hij
      rw [hr] at hj
      cases hj
      exact ⟨status, List.getElem?_set_self hlt, .inr ⟨hs, l, List.mem_of_getElem? hl, rfl, ho⟩⟩
    · exact ⟨r.status, (List.getElem?_set_ne hij).trans hj, .inl rfl⟩
  refine ⟨same ▸ hn, ⟨hc.consistent.closed hl ho hs, fun {l'} hl' => ?_⟩,
    (grows_closed hl ho hs).kept, row, fun {r} hr' => ?_⟩
  · obtain hl' | rfl := List.mem_or_eq_of_mem_set hl'
    · refine hc.row_of_ended (fun j r hj => ?_) hl'
      obtain ⟨st, hr', hst⟩ := row hj
      exact ⟨st, hr', hst.imp_right And.left⟩
    · exact ⟨status, List.mem_of_getElem? (List.getElem?_set_self hlt), .inl rfl⟩
  · obtain hr' | rfl := List.mem_or_eq_of_mem_set hr'
    · exact .inl ⟨r, hr', rfl⟩
    · exact .inl ⟨_, List.mem_of_getElem? hr, rfl⟩

/-- A record is entered, and its row is appended. -/
theorem Copies.changes_entered {store : σ} (hc : L.Copies rows) (hn : (rows.map (·.id)).Nodup)
    (hk : L.knows l.id = false) (hf : L.holders.find? l.exporter = none)
    (hnew : ∀ r ∈ rows, r.id ≠ l.id) : Changes L (L.entered l store) rows (rows ++ [l]) := by
  refine ⟨?_, ⟨hc.consistent.entered hk fun _ => hf, fun {l'} hl' => ?_⟩, grows_entered.kept,
    fun {pos r} hr => ?_, fun {r} hr => ?_⟩
  · rw [List.map_append, List.nodup_append]
    refine ⟨hn, List.nodup_singleton _, ?_⟩
    rintro _ hid _ hid' rfl
    obtain ⟨r, hr, rfl⟩ := List.mem_map.1 hid
    exact hnew r hr (List.mem_singleton.1 hid')
  · obtain hl' | hl' := List.mem_append.1 hl'
    · obtain ⟨st, hr, hst⟩ := hc.row hl'
      exact ⟨st, List.mem_append_left _ hr, hst⟩
    · exact ⟨l'.status, List.mem_append_right _ hl', .inl rfl⟩
  · obtain ⟨hlt, -⟩ := List.getElem?_eq_some_iff.1 hr
    exact ⟨r.status, (List.getElem?_append_left hlt).trans hr, .inl rfl⟩
  · obtain hr | hr := List.mem_append.1 hr
    · exact .inl ⟨r, hr, rfl⟩
    · obtain rfl := List.mem_singleton.1 hr
      exact .inr ⟨r, List.mem_append_right _ (List.mem_singleton_self r), rfl⟩

variable [LeaseStore σ] {holds : σ → List Lease → Prop}

/-- One write of a ledger, to a store that keeps records. -/
theorem Write.changes (hk : Keeps holds) (hh : holds L.store rows) (hc : L.Copies rows)
    (hn : (rows.map (·.id)).Nodup) (hf : Fresh L L' rows) (hw : Write L L') :
    ∃ rows', holds L'.store rows' ∧ Changes L L' rows rows' := by
  cases hw with
  | refused hs => exact ⟨rows, hk.refused hh hs, hc.unchanged hn _⟩
  | closed hl ho hover hs =>
    obtain ⟨st, hr, -⟩ := hc.row (List.mem_of_getElem? hl)
    obtain ⟨i, hi⟩ := List.mem_iff_getElem?.1 hr
    exact ⟨_, hk.closed hh hn hi hs, hc.changes_closed hn hl ho hover hi⟩
  | @entered l s hnew _ hfree hs =>
    have fresh : ∀ r ∈ rows, r.id ≠ l.id :=
      hf l (List.mem_append_right _ (List.mem_singleton_self l))
        (hc.consistent.knows_eq_false_iff.1 hnew)
    exact ⟨_, hk.entered hh fresh hs, hc.changes_entered hn hnew hfree fresh⟩

/-- Any number of writes of a ledger, to a store that keeps records. -/
theorem Writes.changes (hk : Keeps holds) (hw : Writes L L') : ∀ {rows : List Lease},
    holds L.store rows → L.Copies rows → (rows.map (·.id)).Nodup → Fresh L L' rows →
    ∃ rows', holds L'.store rows' ∧ Changes L L' rows rows' := by
  induction hw using Relation.ReflTransGen.head_induction_on with
  | refl =>
    intro rows hh hc hn _
    exact ⟨rows, hh, hc.unchanged hn L'.store⟩
  | head first others ih =>
    intro rows hh hc hn hf
    have hf₁ := hf.of_grows (Writes.grows others)
    obtain ⟨rows₁, hh₁, change⟩ := first.changes hk hh hc hn hf₁
    obtain ⟨rows', hh', change'⟩ := ih hh₁ change.copies change.nodup (change.fresh hf)
    exact ⟨rows', hh', change.trans change' first.grows hf₁⟩

end LabLease.Ledger
