import LabLease.Proofs.Ledger.Claim
import LabLease.Proofs.Ledger.History

/-!
# What a release does

`ReleaseSpec` says which answer a release gets and what becomes of the ledger. What is not recorded
is not found, and a lease that is over stays as it is. An open lease is closed: as expired if it is
due, which is then the answer too, and as released if it is not. If the store refuses that, it is
the answer, and nothing has changed.

Closing a record touches no other record and no other exporter. Its own exporter is free from then
on, so that it can be claimed at any instant, earlier ones included (`Ledger.Frees`). This rests on
the table of holders: an open lease is the one that holds its exporter, so there is something to
take away, and nothing else is left that could stand in the way.
-/

namespace LabLease.Ledger

open LeaseStore

variable {σ : Type} {L L' : Ledger σ} {l : Lease} {id : String} {pos : Nat}
  {status : Status} {now : Instant} {s : σ}

/-- What was closed no longer holds its exporter. -/
theorem find?_holders_closed (exporter : String) :
    (L.closed pos l status s).holders.find? exporter =
      if l.exporter = exporter then none else L.holders.find? exporter :=
  KeyMap.find?_erase ..

variable [LeaseStore σ]

/-- The record at `pos` has become `l`, and the exporter that it held is free. No other record has
changed, and no other exporter. -/
structure Frees (L : Ledger σ) (pos : Nat) (l : Lease) (L' : Ledger σ) : Prop where
  bounds : L'.bounds = L.bounds
  leases : L'.leases = L.leases.set pos l
  index : L'.index = L.index
  held : L.holders.find? l.exporter = some l.id
  free : L'.holders.find? l.exporter = none
  others {exporter : String} (he : exporter ≠ l.exporter) :
    L'.holders.find? exporter = L.holders.find? exporter
  /-- A claim is granted at any instant, if the length is allowed and the store takes the lease. -/
  claim {b : Booking} {now : Instant} {id : String} (he : b.exporter = l.exporter)
    (hb : b.span ∈ L.bounds) (hw : Takes L'.store [b.lease now id]) :
    (L'.claim b now id).1 = .ok (b.lease now id)

/-- The answer that a release should get, and what should become of the ledger. -/
structure ReleaseSpec (L : Ledger σ) (id : String) (now : Instant) (a : Except Failure Lease)
    (L' : Ledger σ) : Prop where
  /-- What is not recorded is not found. -/
  unknown (hid : ∀ l ∈ L.leases, l.id ≠ id) : a = .error (.unknownLease id) ∧ L' = L
  /-- A lease that is over stays as it is. -/
  ended {pos : Nat} {l : Lease} (hl : L.leases[pos]? = some l) (hid : l.id = id)
    (ho : l.status = .released ∨ l.status = .expired) :
    a = .error (.alreadyOver id l.status) ∧ L' = L
  /-- An active lease past its deadline is recorded as expired. -/
  late {pos : Nat} {l : Lease} {s : σ} (hl : L.leases[pos]? = some l) (hid : l.id = id)
    (hs : l.status = .active) (hd : l.expiresAt ≤ now)
    (hw : save L.store { l with status := .expired } = (.ok (), s)) :
    a = .error (.alreadyOver id .expired) ∧ L.Frees pos { l with status := .expired } L'
  /-- Any other open lease is given back. -/
  released {pos : Nat} {l : Lease} {s : σ} (hl : L.leases[pos]? = some l) (hid : l.id = id)
    (ho : l.status = .pending ∨ l.status = .active ∧ now < l.expiresAt)
    (hw : save L.store { l with status := .released } = (.ok (), s)) :
    a = .ok { l with status := .released } ∧ L.Frees pos { l with status := .released } L'
  /-- If the store refuses what there is to write, nothing has changed. -/
  refused {pos : Nat} {l : Lease} {fault : StoreFault} {s : σ} (hl : L.leases[pos]? = some l)
    (hid : l.id = id) (ho : l.status = .pending ∨ l.status = .active)
    (hw : save L.store { l with
      status := if l.status = .active ∧ l.expiresAt ≤ now then .expired else .released } =
        (.error fault, s)) :
    a = .error (.store fault) ∧ L' = { L with store := s } ∧
      (Careful σ → load L'.store = load L.store)

/-! ## Closing a record -/

/-- A free exporter can be claimed at any instant. -/
theorem Consistent.claim_of_free (h : L.Consistent) {b : Booking}
    (hf : L.holders.find? b.exporter = none) (hb : b.span ∈ L.bounds)
    (hw : Takes L.store [b.lease now id]) : (L.claim b now id).1 = .ok (b.lease now id) := by
  have hw' : Takes L.store (L.toWrite b now id) := by rwa [h.toWrite_of_find?_eq_none hf]
  exact (claim_outcome h b now id).ok_of_takes h hb (h.not_blocked_of_find?_eq_none hf) hw'

/-- Closing an open record frees its exporter. -/
theorem Consistent.frees_closed (h : L.Consistent) (hl : L.leases[pos]? = some l)
    (ho : l.status.isOver = false) (hs : status.isOver = true) :
    L.Frees pos { l with status := status } (L.closed pos l status s) where
  bounds := rfl
  leases := rfl
  index := rfl
  held := h.holders_iff.2 ⟨l, List.mem_of_getElem? hl, rfl, rfl, ho⟩
  free := by rw [find?_holders_closed, if_pos rfl]
  others he := by rw [find?_holders_closed, if_neg he.symm]
  claim he hb hw := by
    refine (h.closed hl ho hs).claim_of_free ?_ hb hw
    rw [find?_holders_closed, if_pos he.symm]

/-! ## The release -/

/-- The status in which a release leaves an open lease. -/
def closing (l : Lease) (now : Instant) : Status := if l.isDue now then .expired else .released

theorem closing_of_isDue (hd : l.isDue now = true) : closing l now = .expired := if_pos hd

theorem closing_of_not_isDue (hd : l.isDue now = false) : closing l now = .released := by
  rw [closing, hd, if_neg Bool.false_ne_true]

/-- A release of a recorded lease leaves one that is over alone. An open one is written as it is to
be closed, and closed if that succeeds. -/
theorem Consistent.release_eq (h : L.Consistent) (hl : L.leases[pos]? = some l) (hid : l.id = id)
    (now : Instant) : L.release id now =
      if l.status.isOver then (.error (.alreadyOver id l.status), L)
      else match save L.store { l with status := closing l now } with
        | (.error fault, s) => (.error (.store fault), { L with store := s })
        | (.ok (), s) =>
          (if l.isDue now then .error (.alreadyOver id .expired)
            else .ok { l with status := .released },
          L.closed pos l (closing l now) s) := by
  have hout := release_outcome h id now
  generalize L.release id now = answer at hout ⊢
  obtain ⟨a, L'⟩ := answer
  cases hout with
  | unknown hno => exact absurd hid (hno l (List.mem_of_getElem? hl))
  | ended hl' hid' ho =>
    obtain ⟨rfl, rfl⟩ := h.same_record hl hl' (hid.trans hid'.symm)
    rw [if_pos ho]
  | refused hl' hid' ho hs =>
    obtain ⟨rfl, rfl⟩ := h.same_record hl hl' (hid.trans hid'.symm)
    rw [if_neg (ho ▸ Bool.false_ne_true), closing, hs]
  | late hl' hid' hd hs =>
    obtain ⟨rfl, rfl⟩ := h.same_record hl hl' (hid.trans hid'.symm)
    rw [if_neg (isOver_of_isDue hd ▸ Bool.false_ne_true), closing_of_isDue hd, hs]
    exact Prod.ext (if_pos hd).symm rfl
  | released hl' hid' ho hd hs =>
    obtain ⟨rfl, rfl⟩ := h.same_record hl hl' (hid.trans hid'.symm)
    rw [if_neg (ho ▸ Bool.false_ne_true), closing_of_not_isDue hd, hs]
    exact Prod.ext (if_neg (hd ▸ Bool.false_ne_true)).symm rfl

/-- What a release is to write is said by status and deadline. -/
theorem closing_eq (l : Lease) (now : Instant) : closing l now =
    if l.status = .active ∧ l.expiresAt ≤ now then .expired else .released := by
  simp only [closing, Lease.isDue_iff]

/-- In every ledger that a run leads to, a release closes an open record, as released or, past its
deadline, as expired, and nothing else changes but that its exporter is free. Where there is no open
record, or the store refuses to write it, the ledger stays as it is. Reference:
`LeaseLedger.release`, §4.3. -/
theorem Reachable.release_meets (hr : L.Reachable) (id : String) (now : Instant) :
    ReleaseSpec L id now (L.release id now).1 (L.release id now).2 where
  unknown hno := by
    have hout := release_outcome hr.consistent id now
    generalize L.release id now = answer at hout ⊢
    obtain ⟨a, L'⟩ := answer
    cases hout with
    | unknown => exact ⟨rfl, rfl⟩
    | ended hl hid | refused hl hid | late hl hid | released hl hid =>
      exact absurd hid (hno _ (List.mem_of_getElem? hl))
  ended hl hid ho := by
    rw [hr.consistent.release_eq hl hid, if_pos (Status.isOver_eq_true_iff.2 ho)]
    exact ⟨rfl, rfl⟩
  late {pos l s} hl hid hs hd hw := by
    have hdue : l.isDue now = true := Lease.isDue_iff.2 ⟨hs, hd⟩
    have ho : l.status.isOver = false := isOver_of_isDue hdue
    rw [hr.consistent.release_eq hl hid, if_neg (ho ▸ Bool.false_ne_true), closing_of_isDue hdue,
      hw]
    exact ⟨if_pos hdue, hr.consistent.frees_closed hl ho rfl⟩
  released {pos l s} hl hid hopen hw := by
    have ho : l.status.isOver = false :=
      Status.isOver_eq_false_iff.2 (hopen.imp_right And.left)
    have hdue : l.isDue now = false := by
      refine Bool.eq_false_iff.2 fun hdue => ?_
      obtain ⟨hs, hd⟩ := Lease.isDue_iff.1 hdue
      obtain hs' | ⟨-, hlt⟩ := hopen
      · rw [hs] at hs'
        cases hs'
      · exact absurd hlt (UInt64.not_lt.2 hd)
    rw [hr.consistent.release_eq hl hid, if_neg (ho ▸ Bool.false_ne_true),
      closing_of_not_isDue hdue, hw]
    exact ⟨if_neg (hdue ▸ Bool.false_ne_true), hr.consistent.frees_closed hl ho rfl⟩
  refused {pos l fault s} hl hid hopen hw := by
    have ho : l.status.isOver = false := Status.isOver_eq_false_iff.2 hopen
    rw [← closing_eq] at hw
    rw [hr.consistent.release_eq hl hid, if_neg (ho ▸ Bool.false_ne_true), hw]
    exact ⟨rfl, rfl, fun hc => hc hw⟩

/-- Of the rehearsal's ledger after two claims a release is refused by the store. After four actions
one comes too late; its exporter is free all the same, also at earlier instants. -/
theorem release_meets_rehearsed :
    ∃ L M : Ledger (FaultyStore MemoryStore), L.Reachable ∧ M.Reachable ∧
      ReleaseSpec L "a" 0 (L.release "a" 0).1 (L.release "a" 0).2 ∧
      ReleaseSpec M "b" 60000 (M.release "b" 60000).1 (M.release "b" 60000).2 ∧
      ((L.release "a" 0).1 = .error (.store (.device "disk full")) ∧
        (L.release "a" 0).2.leases = L.leases) ∧
      (M.release "b" 60000).1 = .error (.alreadyOver "b" .expired) ∧
      (M.release "b" 59999).1 = .ok ⟨"b", none, "", "e2", .released, 0, 60000, 60000⟩ ∧
      ∃ l, ((M.release "b" 60000).2.claim { exporter := "e2", span := .ofSecs 60 } 0 "e").1 =
        .ok l := by
  have two : Run rehearsed (rehearsal.take 2) ((rehearsal.take 2).foldl after rehearsed) :=
    .cons (by decide) <| .cons (by decide) <| .nil _
  have four : Run rehearsed (rehearsal.take 4) ((rehearsal.take 4).foldl after rehearsed) :=
    .cons (by decide) <| .cons (by decide) <| .cons (by decide) <| .cons (by decide) <| .nil _
  have early : ((rehearsal.take 2).foldl after rehearsed).Reachable := ⟨_, _, .blank rfl, two⟩
  have later : ((rehearsal.take 4).foldl after rehearsed).Reachable := ⟨_, _, .blank rfl, four⟩
  exact ⟨_, _, early, later, Reachable.release_meets early "a" 0,
    Reachable.release_meets later "b" 60000, ⟨rfl, rfl⟩, rfl, rfl, _, rfl⟩

end LabLease.Ledger
