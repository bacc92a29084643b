import LabLease.Proofs.Ledger.Run

/-!
# Recorded history

A ledger forgets nothing. Records keep their places and all that was written in them when they were
entered; only the status may change, once, when an open record is closed (`Ledger.Grows`). One write
does no more than that (`Write.grows`), and so does no run.

Nearly everything that closes a record marks it as expired. Only a release of that very lease, to
which the answer is the lease, marks one as released (`Run.released`).
-/

namespace LabLease

/-- What may become of a record: nothing, or an open one is closed. -/
def Lease.MayBecome (l l' : Lease) : Prop :=
  l' = l ∨ l.status.isOver = false ∧
    ∃ status : Status, status.isOver = true ∧ l' = { l with status := status }

/-- What is over is released or expired. -/
theorem Status.isOver_eq_true_iff {s : Status} :
    s.isOver = true ↔ s = .released ∨ s = .expired := by
  cases s <;> simp [isOver]

/-- A record that was closed stays as it is. -/
theorem Lease.MayBecome.trans {l l' l'' : Lease} (h : l.MayBecome l') (h' : l'.MayBecome l'') :
    l.MayBecome l'' := by
  obtain rfl | ⟨ho, status, hs, rfl⟩ := h
  · exact h'
  · obtain rfl | ⟨ho', -⟩ := h'
    · exact .inr ⟨ho, status, hs, rfl⟩
    · rw [hs] at ho'
      cases ho'

namespace Ledger

variable {σ : Type} {L L' L'' : Ledger σ} {l l' : Lease} {pos : Nat} {status : Status} {s : σ}

/-- Every record is still in its place, as it was or closed. -/
def Grows (L L' : Ledger σ) : Prop :=
  ∀ ⦃pos : Nat⦄ ⦃l : Lease⦄, L.leases[pos]? = some l →
    ∃ l', L'.leases[pos]? = some l' ∧ l.MayBecome l'

theorem Grows.refl (L : Ledger σ) : L.Grows L := fun _ l hl => ⟨l, hl, .inl rfl⟩

theorem Grows.trans (h : L.Grows L') (h' : L'.Grows L'') : L.Grows L'' := by
  intro pos l hl
  obtain ⟨l', hl', hb⟩ := h hl
  obtain ⟨l'', hl'', hb'⟩ := h' hl'
  exact ⟨l'', hl'', hb.trans hb'⟩

/-- Closing an open record. -/
theorem grows_closed (hl : L.leases[pos]? = some l) (ho : l.status.isOver = false)
    (hs : status.isOver = true) : L.Grows (L.closed pos l status s) := by
  intro j l' hl'
  by_cases hj : pos = j
  · subst hj
    rw [hl] at hl'
    cases hl'
    obtain ⟨hlt, -⟩ := List.getElem?_eq_some_iff.1 hl
    exact ⟨_, List.getElem?_set_self hlt, .inr ⟨ho, status, hs, rfl⟩⟩
  · exact ⟨l', (List.getElem?_set_ne hj).trans hl', .inl rfl⟩

/-- Entering a record behind the others. -/
theorem grows_entered : L.Grows (L.entered l s) := by
  intro j l' hl'
  obtain ⟨hlt, -⟩ := List.getElem?_eq_some_iff.1 hl'
  exact ⟨l', (List.getElem?_append_left hlt).trans hl', .inl rfl⟩

/-- No record is marked as released that was not. -/
def ReleasesNone (L L' : Ledger σ) : Prop :=
  ∀ ⦃pos : Nat⦄ ⦃l : Lease⦄, L'.leases[pos]? = some l → l.status = .released →
    L.leases[pos]? = some l

theorem ReleasesNone.refl (L : Ledger σ) : L.ReleasesNone L := fun _ _ hl _ => hl

theorem ReleasesNone.trans (h : L.ReleasesNone L') (h' : L'.ReleasesNone L'') :
    L.ReleasesNone L'' :=
  fun _ _ hl hs => h (h' hl hs) hs

/-- Marking a record as expired. -/
theorem releasesNone_expired : L.ReleasesNone (L.closed pos l .expired s) := by
  intro j l' hl' hs
  rw [closed, List.getElem?_set] at hl'
  split at hl'
  · split at hl'
    · cases hl'
      cases hs
    · cases hl'
  · exact hl'

/-- Entering an active record. -/
theorem releasesNone_entered (ha : l.status = .active) : L.ReleasesNone (L.entered l s) := by
  intro j l' hl' hs
  rw [entered, List.getElem?_append] at hl'
  split at hl'
  · exact hl'
  · rw [List.getElem?_singleton] at hl'
    split at hl'
    · cases hl'
      rw [ha] at hs
      cases hs
    · cases hl'

variable [LeaseStore σ] {b : Booking} {now : Instant} {id : String}

/-! ## One action -/

/-- One write closes an open record, enters one, or does nothing to the records. -/
theorem Write.grows (hw : Write L L') : L.Grows L' := by
  cases hw with
  | refused => exact .refl _
  | closed hl ho hs => exact grows_closed hl ho hs
  | entered => exact grows_entered

/-- So do writes one after the other. -/
theorem Writes.grows (hw : Writes L L') : L.Grows L' := by
  induction hw with
  | refl => exact .refl L
  | tail _ hw ih => exact ih.trans hw.grows

/-- A claim releases no lease: a holder in its way has expired. -/
theorem ClaimOutcome.releasesNone {a : Except Failure Lease} (ho : ClaimOutcome L b now id a L') :
    L.ReleasesNone L' := by
  cases ho with
  | outOfRange | held | stuck | refused => exact .refl L
  | cutShort => exact releasesNone_expired
  | takeover => exact releasesNone_expired.trans (releasesNone_entered rfl)
  | granted => exact releasesNone_entered rfl

/-- Recording a lease as expired releases none. -/
theorem ExpireOutcome.releasesNone {a : Except Failure Bool} (ho : ExpireOutcome L id a L') :
    L.ReleasesNone L' := by
  cases ho with
  | unknown | ended | refused => exact .refl L
  | expired => exact releasesNone_expired

/-- Nor does recording several. -/
theorem expireAll_releasesNone : ∀ (ids : List String) {L : Ledger σ}, L.Consistent →
    L.ReleasesNone (L.expireAll ids).2
  | [], L, _ => .refl L
  | id :: ids, L, h => by
    have first := expire_outcome h id
    rw [expireAll_cons_snd]
    exact first.releasesNone.trans (expireAll_releasesNone ids (first.writes.consistent h))

/-- A release marks as released its own lease only, and is answered with it. -/
theorem ReleaseOutcome.released_of_mem {a : Except Failure Lease}
    (ho : ReleaseOutcome L id now a L') (hl : L'.leases[pos]? = some l)
    (hs : l.status = .released) : L.leases[pos]? = some l ∨ l.id = id ∧ a = .ok l := by
  cases ho with
  | unknown | ended | refused => exact .inl hl
  | late => exact .inl (releasesNone_expired hl hs)
  | released hl₀ hid =>
    rw [closed, List.getElem?_set] at hl
    split at hl
    · split at hl
      · cases hl
        exact .inr ⟨hid, rfl⟩
      · cases hl
    · exact .inl hl

/-- After an action a lease is released that was released before, or the action is its release and
was answered with it. -/
theorem released_after {a : Action} (h : L.Consistent)
    (hl : (L.after a).leases[pos]? = some l) (hs : l.status = .released) :
    L.leases[pos]? = some l ∨
      ∃ now, a = .release l.id now ∧ (L.release l.id now).1 = .ok l := by
  cases a with
  | claim b now id => exact .inl ((claim_outcome h b now id).releasesNone hl hs)
  | release id now =>
    obtain hl | ⟨rfl, ha⟩ := (release_outcome h id now).released_of_mem hl hs
    · exact .inl hl
    · exact .inr ⟨now, rfl, ha⟩
  | expire id => exact .inl ((expire_outcome h id).releasesNone hl hs)
  | sweep now => exact .inl (expireAll_releasesNone (L.due now) h hl hs)

/-! ## A run -/

/-- After a run a lease is released that was released before, or was released in the run, by a
request that was answered with it. -/
theorem Run.released {as : List Action} (hr : Run L as L') (h : L.Consistent)
    (hl : L'.leases[pos]? = some l) (hs : l.status = .released) :
    L.leases[pos]? = some l ∨
      ∃ before now later, as = before ++ .release l.id now :: later ∧
        ((before.foldl after L).release l.id now).1 = .ok l := by
  induction hr with
  | nil => exact .inl hl
  | @cons L _ a as ha _ ih =>
    -- Either the rest of the run released it, or it was released when the rest began.
    obtain hl | ⟨before, now, later, rfl, ho⟩ := ih ((after_writes h ha).consistent h) hl
    · obtain hl | ⟨now, rfl, ho⟩ := released_after h hl hs
      · exact .inl hl
      · exact .inr ⟨[], now, as, rfl, ho⟩
    · exact .inr ⟨a :: before, now, later, rfl, ho⟩

/-- Between any two moments of a run each record keeps its place and everything but its status,
which may only go from pending or active to released or expired, and then stays. A record is
released only by a release of its own lease that was answered with it. Reference:
`LedgerState.transition`, §3. -/
theorem Run.history_kept {as : List Action} (h : L.Reachable) (hr : Run L as L') :
    (∀ (pos : Nat) (l : Lease), L.leases[pos]? = some l → ∃ status : Status,
      L'.leases[pos]? = some { l with status := status } ∧
      (status = l.status ∨
        (l.status = .pending ∨ l.status = .active) ∧
        (status = .released ∨ status = .expired))) ∧
    (∀ (pos : Nat) (l : Lease), L.leases[pos]? = some l →
      (l.status = .released ∨ l.status = .expired) → L'.leases[pos]? = some l) ∧
    (∀ (pos : Nat) (l : Lease), L'.leases[pos]? = some l → l.status = .released →
      L.leases[pos]? = some l ∨
        ∃ before now later, as = before ++ .release l.id now :: later ∧
          ((before.foldl after L).release l.id now).1 = .ok l) := by
  have grows : L.Grows L' := (hr.writes h.consistent).grows
  simp only [← Status.isOver_eq_false_iff, ← Status.isOver_eq_true_iff]
  refine ⟨?_, ?_, ?_⟩
  · intro pos l hl
    obtain ⟨l', hl', rfl | ⟨ho, status, hs, rfl⟩⟩ := grows hl
    · exact ⟨l'.status, hl', .inl rfl⟩
    · exact ⟨status, hl', .inr ⟨ho, hs⟩⟩
  · intro pos l hl ho
    obtain ⟨l', hl', rfl | ⟨ho', -⟩⟩ := grows hl
    · exact hl'
    · rw [ho] at ho'
      cases ho'
  · intro pos l hl hs
    exact hr.released h.consistent hl hs

/-- After four actions of the rehearsal there are three leases. The rest of it releases the last of
them, sweeps the second, and enters a fourth. -/
theorem Run.history_kept_rehearsed :
    ∃ L L' : Ledger (FaultyStore MemoryStore), L.Reachable ∧ Run L (rehearsal.drop 4) L' ∧
      L.leases.map (fun l => (l.id, l.status)) =
        [("a", .expired), ("b", .active), ("d", .active)] ∧
      L'.leases.map (fun l => (l.id, l.status)) =
        [("a", .expired), ("b", .expired), ("d", .released), ("e", .active)] ∧
      (∀ l, L.leases[0]? = some l → (l.status = .released ∨ l.status = .expired) →
        L'.leases[0]? = some l) ∧
      ∀ l, L'.leases[2]? = some l → l.status = .released →
        L.leases[2]? = some l ∨
          ∃ before now later, rehearsal.drop 4 = before ++ .release l.id now :: later ∧
            ((before.foldl after L).release l.id now).1 = .ok l := by
  have first : Run rehearsed (rehearsal.take 4) ((rehearsal.take 4).foldl after rehearsed) :=
    .cons (by decide) <| .cons (by decide) <| .cons (by decide) <| .cons (by decide) <| .nil _
  have reachable : ((rehearsal.take 4).foldl after rehearsed).Reachable :=
    ⟨rehearsed, _, .blank rfl, first⟩
  have rest : Run ((rehearsal.take 4).foldl after rehearsed) (rehearsal.drop 4)
      (rehearsal.foldl after rehearsed) :=
    .cons (by decide) <| .cons (by decide) <| .cons (by decide) <| .nil _
  obtain ⟨-, stays, released⟩ := Run.history_kept reachable rest
  exact ⟨_, _, reachable, rest, by decide, by decide, stays 0, released 2⟩

end Ledger

end LabLease
