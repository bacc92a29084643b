import LabLease.Proofs.Ledger.Outcome
import LabLease.Proofs.Store.Taking

/-!
# When a claim is granted

What a claim meets is decided by the records of its exporter. One that is open and not due blocks
it (`Ledger.Blocked`), and then the claim is refused and changes nothing
(`ClaimOutcome.of_blocked`), in the name of that record (`Consistent.claim_eq_held_iff`). If none
does and the length is allowed, the claim is granted as soon as the store takes what there is to
write (`ClaimOutcome.ok_of_takes`): the expiry of a due holder, if there is one, and the new lease
(`Ledger.toWrite`).
-/

namespace LabLease.Ledger

open LeaseStore

variable {σ : Type} {L L' : Ledger σ} {l l' : Lease} {id exporter holder : String} {b : Booking}
  {now : Instant}

/-- An open record of the exporter is not due. -/
def Blocked (L : Ledger σ) (now : Instant) (exporter : String) : Prop :=
  ∃ l ∈ L.leases, l.exporter = exporter ∧ l.status.isOver = false ∧ l.isDue now = false

instance (L : Ledger σ) (now : Instant) (exporter : String) : Decidable (L.Blocked now exporter) :=
  inferInstanceAs (Decidable (∃ l ∈ L.leases, _))

/-- What a claim writes, if nothing of it is refused: the expiry of a due holder, and then the new
lease. -/
def toWrite (L : Ledger σ) (b : Booking) (now : Instant) (id : String) : List Lease :=
  ((L.leases.find? fun l => l.exporter == b.exporter && l.isDue now).toList.map
    ({ · with status := .expired })) ++ [b.lease now id]

/-- A due holder is all that its exporter has in the way. -/
theorem Consistent.not_blocked_of_due (h : L.Consistent) (hl : l ∈ L.leases)
    (hd : l.isDue now = true) : ¬ L.Blocked now l.exporter := by
  rintro ⟨l', hl', he, ho, hd'⟩
  obtain rfl := h.eq_of_exporter hl' hl he ho (isOver_of_isDue hd)
  rw [hd] at hd'
  cases hd'

/-- An exporter without a holder is not blocked. -/
theorem Consistent.not_blocked_of_find?_eq_none (h : L.Consistent)
    (hf : L.holders.find? exporter = none) : ¬ L.Blocked now exporter := by
  rintro ⟨l, hl, he, ho, -⟩
  rw [h.isOver_of_find?_eq_none hf hl he] at ho
  cases ho

/-- In place of a due holder a claim writes two records. -/
theorem Consistent.toWrite_of_due (h : L.Consistent) (hl : l ∈ L.leases)
    (he : l.exporter = b.exporter) (hd : l.isDue now = true) :
    L.toWrite b now id = [{ l with status := .expired }, b.lease now id] := by
  have hfind : L.leases.find? (fun l => l.exporter == b.exporter && l.isDue now) = some l := by
    cases hf : L.leases.find? fun l => l.exporter == b.exporter && l.isDue now with
    | none => simpa [he, hd] using List.find?_eq_none.1 hf l hl
    | some l' =>
      have hl' := List.mem_of_find?_eq_some hf
      obtain ⟨he', hd'⟩ : l'.exporter = b.exporter ∧ l'.isDue now = true := by
        simpa using List.find?_some hf
      rw [h.eq_of_exporter hl' hl (he'.trans he.symm) (isOver_of_isDue hd') (isOver_of_isDue hd)]
  rw [toWrite, hfind]
  rfl

/-- On an exporter without a holder a claim writes the new lease. -/
theorem Consistent.toWrite_of_find?_eq_none (h : L.Consistent)
    (hf : L.holders.find? b.exporter = none) : L.toWrite b now id = [b.lease now id] := by
  have hfind : L.leases.find? (fun l => l.exporter == b.exporter && l.isDue now) = none := by
    refine List.find?_eq_none.2 fun l hl hboth => ?_
    obtain ⟨he, hd⟩ : l.exporter = b.exporter ∧ l.isDue now = true := by simpa using hboth
    have := h.isOver_of_find?_eq_none hf hl he
    rw [isOver_of_isDue hd] at this
    cases this
  rw [toWrite, hfind]
  rfl

variable [LeaseStore σ] {a : Except Failure Lease}

/-- A claim on a blocked exporter is refused and changes nothing. -/
theorem ClaimOutcome.of_blocked (ho : ClaimOutcome L b now id a L') (h : L.Consistent)
    (hb : b.span ∈ L.bounds) (hbl : L.Blocked now b.exporter) :
    (∃ holder, a = .error (.exporterHeld b.exporter holder)) ∧ L' = L := by
  cases ho with
  | outOfRange hb' => exact absurd hb hb'
  | held => exact ⟨⟨_, rfl⟩, rfl⟩
  | stuck _ hl he hd | cutShort _ hl he hd | takeover _ hl he hd =>
    rw [← he] at hbl
    exact absurd hbl (h.not_blocked_of_due (List.mem_of_getElem? hl) hd)
  | refused _ hf | granted _ hf => exact absurd hbl (h.not_blocked_of_find?_eq_none hf)

/-- A claim on an exporter that is not blocked is not refused for a holder. -/
theorem ClaimOutcome.not_held (ho : ClaimOutcome L b now id a L')
    (hbl : ¬ L.Blocked now b.exporter) (e holder : String) :
    a ≠ .error (.exporterHeld e holder) := by
  rintro rfl
  cases ho with
  | held _ hl he ho hd => exact hbl ⟨_, List.mem_of_getElem? hl, he, ho, hd⟩

/-- A claim is refused for a lease exactly if that is the one that blocks the exporter. -/
theorem Consistent.claim_eq_held_iff (h : L.Consistent) (hb : b.span ∈ L.bounds) :
    (L.claim b now id).1 = .error (.exporterHeld b.exporter holder) ↔
      ∃ l ∈ L.leases, l.id = holder ∧ l.exporter = b.exporter ∧ l.status.isOver = false ∧
        l.isDue now = false := by
  have ho := claim_outcome h b now id
  generalize L.claim b now id = answer at ho
  obtain ⟨a, L'⟩ := answer
  constructor
  · rintro rfl
    cases ho with
    | held _ hl he ho hd => exact ⟨_, List.mem_of_getElem? hl, rfl, he, ho, hd⟩
  · rintro ⟨l, hl, rfl, he, hopen, hd⟩
    obtain ⟨⟨holder, rfl⟩, -⟩ := ho.of_blocked h hb ⟨l, hl, he, hopen, hd⟩
    cases ho with
    | held _ hl' he' hopen' _ =>
      rw [h.eq_of_exporter hl (List.mem_of_getElem? hl') (he.trans he'.symm) hopen hopen']

/-- A claim on an exporter that is not blocked is granted if the store takes what it writes. -/
theorem ClaimOutcome.ok_of_takes (ho : ClaimOutcome L b now id a L') (h : L.Consistent)
    (hb : b.span ∈ L.bounds) (hbl : ¬ L.Blocked now b.exporter)
    (hw : Takes L.store (L.toWrite b now id)) : a = .ok (b.lease now id) := by
  cases ho with
  | outOfRange hb' => exact absurd hb hb'
  | held _ hl he ho hd => exact absurd ⟨_, List.mem_of_getElem? hl, he, ho, hd⟩ hbl
  | stuck _ hl he hd hs =>
    rw [h.toWrite_of_due (List.mem_of_getElem? hl) he hd] at hw
    exact absurd hw (not_takes_of_error hs)
  | cutShort _ hl he hd hs hs' =>
    rw [h.toWrite_of_due (List.mem_of_getElem? hl) he hd, takes_cons_of_ok hs] at hw
    exact absurd hw (not_takes_of_error hs')
  | refused _ hf hs =>
    rw [h.toWrite_of_find?_eq_none hf] at hw
    exact absurd hw (not_takes_of_error hs)
  | takeover | granted => rfl

/-- A claim that is granted is answered with the lease that was asked for. -/
theorem ClaimOutcome.eq_lease_of_ok (ho : ClaimOutcome L b now id (.ok l) L') :
    l = b.lease now id := by
  cases ho with
  | takeover | granted => rfl

/-- The length that was asked for may be granted then, and the lease is recorded. -/
theorem ClaimOutcome.recorded_of_ok (ho : ClaimOutcome L b now id (.ok l) L') :
    b.span ∈ L.bounds ∧ l ∈ L'.leases := by
  cases ho with
  | takeover hb | granted hb =>
    exact ⟨hb, List.mem_append_right _ (List.mem_singleton_self _)⟩

end LabLease.Ledger
