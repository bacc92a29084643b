import LabLease.Proofs.Broker.Thinning
import LabLease.Proofs.Ledger.History

/-!
# What a request does to a record

A request leaves every record in its place. It may turn one that is due into an expired one, and the
release of a lease may turn its record into a released one, if the lease is open and not due and the
answer is the lease (`Lease.Turns`). Nothing else may become of a record (`Service.put_turns`).

For all requests but a release that succeeds this follows from two facts: a write at most closes a
record (`Ledger.Grows`), and the request does not change what is shown of it.
-/

namespace LabLease

open Service

namespace Lease

variable {l l' : Lease} {now later : Instant} {e : Event} {a : Answer}

/-- What becomes of a record by a request that gets an answer. -/
inductive Turns (e : Event) (a : Answer) (l : Lease) : Lease → Prop
  | stays : Turns e a l l
  /-- The deadline has come. -/
  | expires (hd : l.isDue e.time = true) : Turns e a l { l with status := .expired }
  /-- The lease is given back. -/
  | released (ho : l.status.isOver = false) (hd : l.isDue e.time = false)
      (he : e.call = .release l.id) (ha : a = .lease (.ok { l with status := .released })) :
      Turns e a l { l with status := .released }

theorem Turns.id_eq (ht : l.Turns e a l') : l'.id = l.id := by
  cases ht <;> rfl

/-- A record that is shown as it was shown before has at most been expired. -/
theorem MayBecome.turns (hb : l.MayBecome l') (hs : l'.observedAt e.time = l.observedAt e.time) :
    l.Turns e a l' := by
  obtain rfl | ⟨ho, status, hover, rfl⟩ := hb
  · exact .stays
  · rw [observedAt_of_isOver hover] at hs
    by_cases hd : l.isDue e.time = true
    · rw [hs, observedAt_of_isDue hd]
      exact .expires hd
    · rw [observedAt_of_not_isDue hd] at hs
      have same : status = l.status := congrArg Lease.status hs
      rw [← same, hover] at ho
      cases ho

/-- What is shown as over is shown the same from then on. -/
theorem observedAt_of_shown_over (hle : now ≤ later)
    (ho : (l.observedAt now).status.isOver = true) : l.observedAt later = l.observedAt now := by
  rw [← observedAt_observedAt hle, observedAt_of_isOver ho]

/-- No request makes a difference to what has been shown as over. -/
theorem Turns.observedAt_eq (ht : l.Turns e a l') (hle : now ≤ e.time)
    (ho : (l.observedAt now).status.isOver = true) : l'.observedAt e.time = l.observedAt now := by
  rw [← observedAt_of_shown_over hle ho]
  cases ht with
  | stays => rfl
  | expires hd => exact observedAt_expired (UInt64.le_refl _) hd
  | released hopen hd =>
    rw [isOver_observedAt, hopen, Bool.false_or] at ho
    rw [isDue_of_le hle ho] at hd
    cases hd

end Lease

variable {σ : Type} {L L' : Ledger σ} {l : Lease} {pos : Nat} {now : Instant} {id : String}
  {e : Event}

/-- Of records that stay in their places and are shown as before, each has at most been expired. -/
theorem Ledger.Grows.turns (hg : L.Grows L')
    (hs : Records.seenAt e.time L.leases <+: Records.seenAt e.time L'.leases)
    (hl : L.leases[pos]? = some l) (a : Answer) :
    ∃ l', L'.leases[pos]? = some l' ∧ l.Turns e a l' := by
  obtain ⟨l', hl', hb⟩ := hg hl
  refine ⟨l', hl', hb.turns ?_⟩
  have shown {ls : List Lease} {l : Lease} (hl : ls[pos]? = some l) :
      (Records.seenAt e.time ls)[pos]? = some (l.observedAt e.time) := by
    rw [Records.seenAt, List.getElem?_map, hl]
    rfl
  obtain ⟨rest, hrest⟩ := hs
  obtain ⟨hlt, -⟩ := List.getElem?_eq_some_iff.1 (shown hl)
  have same := shown hl'
  rw [← hrest, List.getElem?_append_left hlt, shown hl] at same
  exact (Option.some.inj same).symm

variable [LeaseStore σ]

/-- An allocation changes nothing of what is shown of the records that are there. -/
theorem AllocateOutcome.seenAt_prefix {o : Order} {listed : List Exporter}
    {a : Except Failure Lease} (ho : AllocateOutcome L o listed now id a L') (h : L.Consistent) :
    Records.seenAt now L.leases <+: Records.seenAt now L'.leases := by
  cases a with
  | error f => exact ho.seenAt_of_error ▸ List.prefix_refl _
  | ok l =>
    obtain ⟨r, -, hleases⟩ := ho.granted_of_ok h
    refine ⟨Records.seenAt now [l], ?_⟩
    rw [hleases, ← Records.seenAt_settle (UInt64.le_refl now) (·.exporter == r) L.leases]
    exact List.map_append.symm

/-- A release that succeeds changes its own record; any other changes nothing of what is shown. -/
theorem Ledger.ReleaseOutcome.turns {a : Except Failure Lease}
    (ho : ReleaseOutcome L id now a L') (hl : L.leases[pos]? = some l) :
    ∃ l', L'.leases[pos]? = some l' ∧ l.Turns ⟨now, .release id⟩ (.lease a) l' := by
  have grows := ho.writes.grows
  cases a with
  | error f =>
    have same : Records.seenAt now L.leases <+: Records.seenAt now L'.leases :=
      ho.seenAt_of_error ▸ List.prefix_refl _
    exact grows.turns same hl _
  | ok released =>
    cases ho with
    | @released pos' l₀ _ hl₀ hid hopen hd =>
      by_cases hpos : pos' = pos
      · subst hpos
        rw [hl₀] at hl
        cases hl
        obtain ⟨hlt, -⟩ := List.getElem?_eq_some_iff.1 hl₀
        exact ⟨_, List.getElem?_set_self hlt, .released hopen hd (hid ▸ rfl) rfl⟩
      · exact ⟨l, (List.getElem?_set_ne hpos).trans hl, .stays⟩

/-- Each record is in its place after a request, and has become no more than it may. -/
theorem Service.put_turns {S : Service σ} (h : S.broker.ledger.Consistent) (ha : S.Admits e)
    (hl : S.broker.ledger.leases[pos]? = some l) :
    ∃ l', (S.put e).2.broker.ledger.leases[pos]? = some l' ∧ l.Turns e (S.put e).1 l' := by
  have grows := (put_writes h ha).grows
  obtain ⟨now, call⟩ := e
  cases call with
  | allocate o =>
    have ho := Broker.allocate_outcome h o S.registry.list now (S.draw S.granted)
    exact grows.turns (ho.seenAt_prefix h) hl _
  | release id => exact (Ledger.release_outcome h id now).turns hl
  | sweep =>
    have shown : Records.seenAt now S.broker.ledger.leases <+:
        Records.seenAt now (S.broker.ledger.sweep now).2.leases :=
      h.seenAt_sweep now ▸ List.prefix_refl _
    exact grows.turns shown hl _
  | lease | list | exporters | summary | update => exact ⟨l, hl, .stays⟩

end LabLease
