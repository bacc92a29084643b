import LabLease.Ledger
import LabLease.Proofs.Ledger.Positions

/-!
# Consistent ledgers

The two look-up tables of a ledger repeat what its records say: the index says where each record
stands, and the table of holders which record binds each exporter. `Ledger.Consistent` is their
agreement with the records, both ways. It implies that identifiers are distinct
(`Consistent.nodup`), that an exporter has at most one record that is not over
(`Consistent.pos_eq_of_exporter`), and that looking up the record of a holder never misses
(`Consistent.record?_holder`).

Two things happen to the records of a ledger and no others: one of them is closed
(`Ledger.closed`), or one is entered behind them (`Ledger.entered`). Both keep the agreement, with
which a ledger without records starts (`consistent_blank`).
-/

namespace LabLease

/-- What is not over is pending or active. -/
theorem Status.isOver_eq_false_iff {s : Status} :
    s.isOver = false ↔ s = .pending ∨ s = .active := by
  cases s <;> simp [isOver]

/-- The lease that a booking is granted with. -/
def Booking.lease (b : Booking) (now : Instant) (id : String) : Lease :=
  { Lease.draft id b.exporter b.selector b.name b.span now with status := .active }

@[simp] theorem Booking.lease_id (b : Booking) (now : Instant) (id : String) :
    (b.lease now id).id = id := rfl
@[simp] theorem Booking.lease_exporter (b : Booking) (now : Instant) (id : String) :
    (b.lease now id).exporter = b.exporter := rfl
@[simp] theorem Booking.lease_status (b : Booking) (now : Instant) (id : String) :
    (b.lease now id).status = .active := rfl

namespace Ledger

variable {σ : Type} {L : Ledger σ} {l l' : Lease} {id exporter : String} {pos i j : Nat}

/-- The look-up tables agree with the records. -/
structure Consistent (L : Ledger σ) : Prop where
  /-- The index maps each recorded identifier, and no other text, to the record's position. -/
  index_iff {id : String} {pos : Nat} :
    L.index.find? id = some pos ↔ ∃ l, L.leases[pos]? = some l ∧ l.id = id
  /-- An exporter is held by a lease exactly if the record of that lease names the exporter and is
  not over. -/
  holders_iff {exporter id : String} :
    L.holders.find? exporter = some id ↔
      ∃ l ∈ L.leases, l.id = id ∧ l.exporter = exporter ∧ l.status.isOver = false

/-! ## What follows from the agreement -/

/-- The index is right about the records. -/
theorem Consistent.locates (h : L.Consistent) : Locates L.index L.leases := fun _ _ => h.index_iff

/-- A record stands where its identifier says. -/
theorem Consistent.pos_eq_of_id (h : L.Consistent) (hl : L.leases[i]? = some l)
    (hl' : L.leases[j]? = some l') (hid : l.id = l'.id) : i = j :=
  h.locates.pos_eq hl hl' hid

/-- Records with one identifier are one record. -/
theorem Consistent.eq_of_id (h : L.Consistent) (hl : l ∈ L.leases) (hl' : l' ∈ L.leases)
    (hid : l.id = l'.id) : l = l' := by
  obtain ⟨i, hi⟩ := List.mem_iff_getElem?.1 hl
  obtain ⟨j, hj⟩ := List.mem_iff_getElem?.1 hl'
  obtain rfl := h.pos_eq_of_id hi hj hid
  rw [hi] at hj
  exact Option.some.inj hj

/-- A record is told by its identifier, and so is its place. -/
theorem Consistent.same_record (h : L.Consistent) (hl : L.leases[i]? = some l)
    (hl' : L.leases[j]? = some l') (hid : l.id = l'.id) : i = j ∧ l = l' :=
  ⟨h.pos_eq_of_id hl hl' hid,
    h.eq_of_id (List.mem_of_getElem? hl) (List.mem_of_getElem? hl') hid⟩

/-- No identifier stands twice. -/
theorem Consistent.nodup (h : L.Consistent) : (L.leases.map (·.id)).Nodup := h.locates.nodup

/-- At most one record of an exporter is not over. -/
theorem Consistent.pos_eq_of_exporter (h : L.Consistent) (hl : L.leases[i]? = some l)
    (hl' : L.leases[j]? = some l') (he : l.exporter = l'.exporter) (ho : l.status.isOver = false)
    (ho' : l'.status.isOver = false) : i = j := by
  have h1 : L.holders.find? l.exporter = some l.id :=
    h.holders_iff.2 ⟨l, List.mem_of_getElem? hl, rfl, rfl, ho⟩
  have h2 : L.holders.find? l.exporter = some l'.id :=
    h.holders_iff.2 ⟨l', List.mem_of_getElem? hl', rfl, he.symm, ho'⟩
  rw [h1] at h2
  exact h.pos_eq_of_id hl hl' (Option.some.inj h2)

theorem Consistent.eq_of_exporter (h : L.Consistent) (hl : l ∈ L.leases) (hl' : l' ∈ L.leases)
    (he : l.exporter = l'.exporter) (ho : l.status.isOver = false)
    (ho' : l'.status.isOver = false) : l = l' := by
  obtain ⟨i, hi⟩ := List.mem_iff_getElem?.1 hl
  obtain ⟨j, hj⟩ := List.mem_iff_getElem?.1 hl'
  obtain rfl := h.pos_eq_of_exporter hi hj he ho ho'
  rw [hi] at hj
  exact Option.some.inj hj

/-- A look-up finds exactly the records. -/
theorem Consistent.record?_iff (h : L.Consistent) :
    L.record? id = some (pos, l) ↔ L.leases[pos]? = some l ∧ l.id = id := by
  constructor
  · intro hr
    unfold record? at hr
    split at hr
    · cases hr
    · next p hp =>
      obtain ⟨l₀, hl₀, hid⟩ := h.index_iff.1 hp
      rw [hl₀] at hr
      cases hr
      exact ⟨hl₀, hid⟩
  · rintro ⟨hl, hid⟩
    have hp : L.index.find? id = some pos := h.index_iff.2 ⟨l, hl, hid⟩
    simp [record?, hp, hl]

/-- A look-up fails exactly for what is no identifier of a record. -/
theorem Consistent.record?_eq_none_iff (h : L.Consistent) :
    L.record? id = none ↔ ∀ l ∈ L.leases, l.id ≠ id := by
  constructor
  · intro hr l hl hid
    obtain ⟨pos, hpos⟩ := List.mem_iff_getElem?.1 hl
    rw [h.record?_iff.2 ⟨hpos, hid⟩] at hr
    cases hr
  · intro hno
    cases hr : L.record? id with
    | none => rfl
    | some r =>
      obtain ⟨hl, hid⟩ := h.record?_iff.1 hr
      exact absurd hid (hno _ (List.mem_of_getElem? hl))

/-- The record of a holder is there, names the exporter, and is not over. -/
theorem Consistent.record?_holder (h : L.Consistent) (hh : L.holders.find? exporter = some id) :
    ∃ pos l, L.record? id = some (pos, l) ∧ L.leases[pos]? = some l ∧ l.id = id ∧
      l.exporter = exporter ∧ l.status.isOver = false := by
  obtain ⟨l, hl, hid, he, ho⟩ := h.holders_iff.1 hh
  obtain ⟨pos, hpos⟩ := List.mem_iff_getElem?.1 hl
  exact ⟨pos, l, h.record?_iff.2 ⟨hpos, hid⟩, hpos, hid, he, ho⟩

/-- An exporter without a holder has only records that are over. -/
theorem Consistent.isOver_of_find?_eq_none (h : L.Consistent)
    (hh : L.holders.find? exporter = none) (hl : l ∈ L.leases) (he : l.exporter = exporter) :
    l.status.isOver = true := by
  cases ho : l.status.isOver with
  | true => rfl
  | false =>
    rw [h.holders_iff.2 ⟨l, hl, rfl, he, ho⟩] at hh
    cases hh

/-- What is looked up as the holder of an exporter is the record of it that is live. -/
theorem Consistent.holder?_eq_some_iff {now : Instant} (h : L.Consistent) :
    L.holder? exporter now = some l ↔
      l ∈ L.leases ∧ l.exporter = exporter ∧ l.isLive now = true := by
  rw [holder?]
  cases hf : L.holders.find? exporter with
  | none =>
    refine ⟨nofun, fun ⟨hl, he, hlive⟩ => ?_⟩
    have := h.isOver_of_find?_eq_none hf hl he
    rw [(Lease.isLive_iff.1 hlive).1] at this
    cases this
  | some holder =>
    obtain ⟨pos, l₀, hr, hl₀, -, rfl, ho⟩ := h.record?_holder hf
    have hmem := List.mem_of_getElem? hl₀
    simp only [hr, Option.ite_none_right_eq_some, Option.some.injEq]
    constructor
    · rintro ⟨hlive, rfl⟩
      exact ⟨hmem, rfl, hlive⟩
    · rintro ⟨hl, he, hlive⟩
      obtain rfl := h.eq_of_exporter hl hmem he (Lease.isLive_iff.1 hlive).1 ho
      exact ⟨hlive, rfl⟩

/-- The ledger knows exactly the identifiers of its records. -/
theorem Consistent.knows_eq_false_iff (h : L.Consistent) :
    L.knows id = false ↔ ∀ l ∈ L.leases, l.id ≠ id := by
  rw [← h.locates.find?_eq_none_iff, knows, KeyMap.contains, Option.isSome_eq_false_iff,
    Option.isNone_iff_eq_none]

/-! ## What happens to the records -/

/-- The ledger after the record `l` at `pos` was given a status in which it is over. -/
def closed (L : Ledger σ) (pos : Nat) (l : Lease) (status : Status) (store : σ) : Ledger σ :=
  { L with
    leases := L.leases.set pos { l with status := status }
    holders := L.holders.erase l.exporter
    store := store }

/-- The ledger after a record was put behind the others. It holds its exporter unless it is
over. -/
def entered (L : Ledger σ) (l : Lease) (store : σ) : Ledger σ :=
  { L with
    leases := L.leases ++ [l]
    index := L.index.insert l.id L.leases.length
    holders := if l.status.isOver then L.holders else L.holders.insert l.exporter l.id
    store := store }

variable {status : Status} {bounds : SpanRange} {store : σ}

/-- What the tables say does not hang on the store. -/
theorem Consistent.withStore {τ : Type} (h : L.Consistent) (store : τ) :
    ({ L with store := store } : Ledger τ).Consistent :=
  ⟨h.index_iff, h.holders_iff⟩

/-- Closing a record keeps the agreement: its exporter is free, since no other record of it is
open. -/
theorem Consistent.closed (h : L.Consistent) (hl : L.leases[pos]? = some l)
    (ho : l.status.isOver = false) (hs : status.isOver = true) :
    (L.closed pos l status store).Consistent where
  index_iff := h.locates.set hl (rfl : ({ l with status := status } : Lease).id = l.id) _ _
  holders_iff {exporter id} := by
    have hne {j : Nat} {l' : Lease} (hj : pos ≠ j) (hl' : L.leases[j]? = some l')
        (ho' : l'.status.isOver = false) : l.exporter ≠ l'.exporter := fun he =>
      hj (h.pos_eq_of_exporter hl hl' he ho ho')
    simp only [Ledger.closed, KeyMap.find?_erase, List.mem_iff_getElem?, List.getElem?_set]
    constructor
    · intro hf
      split at hf
      · cases hf
      · next hne' =>
        obtain ⟨l', hl', hid, he, ho'⟩ := h.holders_iff.1 hf
        obtain ⟨j, hj⟩ := List.mem_iff_getElem?.1 hl'
        have hpj : pos ≠ j := by
          rintro rfl
          rw [hl] at hj
          cases hj
          exact hne' he
        exact ⟨l', ⟨j, by rw [if_neg hpj, hj]⟩, hid, he, ho'⟩
    · rintro ⟨l', ⟨j, hj⟩, hid, he, ho'⟩
      split at hj
      · split at hj <;> cases hj
        rw [hs] at ho'
        cases ho'
      · next hpj =>
        rw [if_neg fun he' => hne hpj hj ho' (he'.trans he.symm)]
        exact h.holders_iff.2 ⟨l', List.mem_of_getElem? hj, hid, he, ho'⟩

/-- Entering a record keeps the agreement, if its identifier is new and, unless it is over, its
exporter has no holder. -/
theorem Consistent.entered (h : L.Consistent) (hk : L.knows l.id = false)
    (hf : l.status.isOver = false → L.holders.find? l.exporter = none) :
    (L.entered l store).Consistent where
  index_iff := h.locates.append (h.knows_eq_false_iff.1 hk) _ _
  holders_iff {exporter id} := by
    simp only [Ledger.entered, List.mem_append, List.mem_singleton]
    cases ho : l.status.isOver with
    | true =>
      rw [if_pos rfl, h.holders_iff]
      constructor
      · rintro ⟨l', hl', hrest⟩
        exact ⟨l', .inl hl', hrest⟩
      · rintro ⟨l', hl' | rfl, hid, he, ho'⟩
        · exact ⟨l', hl', hid, he, ho'⟩
        · rw [ho] at ho'
          cases ho'
    | false =>
      rw [if_neg Bool.false_ne_true, KeyMap.find?_insert]
      split
      · next he =>
        subst he
        constructor
        · rintro ⟨⟩
          exact ⟨l, .inr rfl, rfl, rfl, ho⟩
        · rintro ⟨l', hl' | rfl, rfl, he', ho'⟩
          · have := h.isOver_of_find?_eq_none (hf ho) hl' he'
            rw [this] at ho'
            cases ho'
          · rfl
      · next he =>
        rw [h.holders_iff]
        constructor
        · rintro ⟨l', hl', hrest⟩
          exact ⟨l', .inl hl', hrest⟩
        · rintro ⟨l', hl' | rfl, hid, he', ho'⟩
          · exact ⟨l', hl', hid, he', ho'⟩
          · exact absurd he' he

/-! ## How a ledger starts -/

/-- A ledger without records is consistent. -/
theorem consistent_blank : (blank bounds store).Consistent :=
  ⟨by simp [blank], by simp [blank]⟩

end Ledger

end LabLease
