import LabLease.Proofs.Ledger.Outcome
import Mathlib.Logic.Relation

/-!
# Ledgers write by write

Whatever an operation does to a ledger, it does in single writes to the store: a write that is
refused leaves records and tables alone, one that succeeds closes an open record or enters a new
active one (`Ledger.Write`). A claim makes at most two of them, a release or an expiry one, and a
sweep one for each lease it finds (`ClaimOutcome.writes` and its companions). So what one write
keeps, every operation keeps; the first such thing is consistency (`Write.consistent`).
-/

namespace LabLease.Ledger

variable {σ : Type} [LeaseStore σ] {L L' : Ledger σ} {id : String} {b : Booking} {now : Instant}

/-- One write to the store, and what becomes of the ledger. -/
inductive Write : Ledger σ → Ledger σ → Prop
  /-- The store refuses a record. -/
  | refused {L : Ledger σ} {l : Lease} {fault : StoreFault} {s : σ}
      (hw : LeaseStore.save L.store l = (.error fault, s)) : Write L { L with store := s }
  /-- An open record is closed. -/
  | closed {L : Ledger σ} {pos : Nat} {l : Lease} {status : Status} {s : σ}
      (hl : L.leases[pos]? = some l) (ho : l.status.isOver = false) (hs : status.isOver = true)
      (hw : LeaseStore.save L.store { l with status := status } = (.ok (), s)) :
      Write L (L.closed pos l status s)
  /-- A new active record is entered, on an exporter that is free. -/
  | entered {L : Ledger σ} {l : Lease} {s : σ} (hk : L.knows l.id = false)
      (ha : l.status = .active) (hf : L.holders.find? l.exporter = none)
      (hw : LeaseStore.save L.store l = (.ok (), s)) : Write L (L.entered l s)

/-- Any number of writes, one after the other. -/
abbrev Writes : Ledger σ → Ledger σ → Prop := Relation.ReflTransGen Write

/-- A write keeps the tables in agreement with the records. -/
theorem Write.consistent (h : L.Consistent) (hw : Write L L') : L'.Consistent := by
  cases hw with
  | refused => exact h.withStore _
  | closed hl ho hs => exact h.closed hl ho hs
  | entered hk _ hf => exact h.entered hk fun _ => hf

/-- Writes keep the tables in agreement with the records. -/
theorem Writes.consistent (h : L.Consistent) (hw : Writes L L') : L'.Consistent := by
  induction hw with
  | refl => exact h
  | tail _ hw ih => exact hw.consistent ih

/-! ## The writes of each operation -/

/-- A claim under a new identifier makes at most two writes. -/
theorem ClaimOutcome.writes {a : Except Failure Lease} (hk : L.knows id = false)
    (ho : ClaimOutcome L b now id a L') : Writes L L' := by
  cases ho with
  | outOfRange | held => exact .refl
  | stuck _ _ _ _ hs | refused _ _ hs => exact .single (.refused hs)
  | cutShort _ hl _ hd hs hs' =>
    exact .tail (.single (.closed hl (isOver_of_isDue hd) rfl hs)) (.refused hs')
  | takeover _ hl he hd hs hs' =>
    refine .tail (.single (.closed hl (isOver_of_isDue hd) rfl hs)) (.entered hk rfl ?_ hs')
    simp [Ledger.closed, KeyMap.find?_erase, he]
  | granted _ hf hs => exact .single (.entered hk rfl hf hs)

/-- A release makes at most one write. -/
theorem ReleaseOutcome.writes {a : Except Failure Lease} (ho : ReleaseOutcome L id now a L') :
    Writes L L' := by
  cases ho with
  | unknown | ended => exact .refl
  | refused _ _ _ hs => exact .single (.refused hs)
  | late hl _ hd hs => exact .single (.closed hl (isOver_of_isDue hd) rfl hs)
  | released hl _ ho _ hs => exact .single (.closed hl ho rfl hs)

/-- Recording one lease as expired makes at most one write. -/
theorem ExpireOutcome.writes {a : Except Failure Bool} (ho : ExpireOutcome L id a L') :
    Writes L L' := by
  cases ho with
  | unknown | ended => exact .refl
  | refused _ _ _ hs => exact .single (.refused hs)
  | expired hl _ ho hs => exact .single (.closed hl ho rfl hs)

/-- The ledger after recording several leases as expired does not depend on which of them count. -/
theorem expireAll_cons_snd (L : Ledger σ) (id : String) (ids : List String) :
    (L.expireAll (id :: ids)).2 = ((L.expire id).2.expireAll ids).2 := by
  rw [expireAll]
  split
  · next h => rw [h]
  · next h => rw [h]

/-- A sweep makes one write at a time. -/
theorem expireAll_writes : ∀ (ids : List String) {L : Ledger σ}, L.Consistent →
    Writes L (L.expireAll ids).2
  | [], _, _ => .refl
  | id :: ids, L, h => by
    have first := (expire_outcome h id).writes
    rw [expireAll_cons_snd]
    exact first.trans (expireAll_writes ids (first.consistent h))

end LabLease.Ledger
