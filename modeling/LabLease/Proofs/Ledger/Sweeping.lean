import LabLease.Proofs.Ledger.Write
import LabLease.Proofs.Store.Taking

/-!
# What a sweep records

Readers are shown a lease as it is at `now`, whether or not its expiry has been recorded. A sweep
makes the records what readers are shown (`Consistent.leases_sweep`), if the store takes the expiry
of every lease that is due. One expiry changes the records with one identifier
(`Consistent.leases_expire`), and since identifiers are distinct, a pass changes those that it found
due and no others (`Consistent.leases_expireAll`).
-/

namespace LabLease.Ledger

open LeaseStore

variable {σ : Type} {L : Ledger σ} {l : Lease} {pos : Nat} {status : Status} {store : σ}

/-- Closing a record changes what has its identifier. -/
theorem Consistent.leases_closed (h : L.Consistent) (hl : L.leases[pos]? = some l) :
    (L.closed pos l status store).leases =
      L.leases.map fun l' => if l'.id = l.id then { l' with status := status } else l' :=
  set_eq_map ({ · with status := status }) h.nodup hl

variable [LeaseStore σ]

/-- Recording an open lease as expired changes what has its identifier, if the store takes it. -/
theorem Consistent.leases_expire (h : L.Consistent) (hl : l ∈ L.leases)
    (ho : l.status.isOver = false) {ls : List Lease}
    (hw : Takes L.store ({ l with status := .expired } :: ls)) :
    (L.expire l.id).1 = .ok true ∧ (L.expire l.id).2.Consistent ∧
      Takes (L.expire l.id).2.store ls ∧ (L.expire l.id).2.leases =
        L.leases.map fun l' => if l'.id = l.id then { l' with status := .expired } else l' := by
  have hout := expire_outcome h l.id
  generalize L.expire l.id = answer at hout
  obtain ⟨a, L'⟩ := answer
  cases hout with
  | unknown hid => exact absurd rfl (hid l hl)
  | ended hl' hid ho' =>
    obtain rfl := h.eq_of_id (List.mem_of_getElem? hl') hl hid
    rw [ho] at ho'
    cases ho'
  | refused hl' hid _ hs =>
    obtain rfl := h.eq_of_id (List.mem_of_getElem? hl') hl hid
    exact absurd hw (not_takes_of_error hs)
  | expired hl' hid ho' hs =>
    obtain rfl := h.eq_of_id (List.mem_of_getElem? hl') hl hid
    exact ⟨rfl, h.closed hl' ho' rfl, (takes_cons_of_ok hs).1 hw, h.leases_closed hl'⟩

/-- An expiry that was a change is counted. -/
theorem expireAll_cons_fst {id : String} {ids : List String} (he : (L.expire id).1 = .ok true) :
    (L.expireAll (id :: ids)).1 = ((L.expire id).2.expireAll ids).1 + 1 := by
  rcases hx : L.expire id with ⟨a, L'⟩
  rw [hx] at he
  obtain rfl : a = .ok true := he
  rw [expireAll, hx]

/-- Recording several open leases as expired changes what has their identifiers, if the store takes
them, and all of them count. -/
theorem Consistent.leases_expireAll : ∀ {rs : List Lease} {L : Ledger σ}, L.Consistent →
    (∀ r ∈ rs, r ∈ L.leases ∧ r.status.isOver = false) → (rs.map (·.id)).Nodup →
    Takes L.store (rs.map ({ · with status := .expired })) →
    (L.expireAll (rs.map (·.id))).1 = rs.length ∧
    (L.expireAll (rs.map (·.id))).2.leases = L.leases.map fun l =>
      if l.id ∈ rs.map (·.id) then { l with status := .expired } else l
  | [], L, _, _, _, _ => by simp [expireAll]
  | r :: rs, L, h, hrs, hnodup, hw => by
    obtain ⟨⟨hr, ho⟩, hrs⟩ := List.forall_mem_cons.1 hrs
    obtain ⟨hnew, hnodup⟩ := List.nodup_cons.1 hnodup
    obtain ⟨hchange, h', hw', hleases⟩ := h.leases_expire hr ho hw
    -- The others are still there, since they have other identifiers.
    have others : ∀ r' ∈ rs, r' ∈ (L.expire r.id).2.leases ∧ r'.status.isOver = false := by
      intro r' hr'
      obtain ⟨hmem, ho'⟩ := hrs r' hr'
      have hne : r'.id ≠ r.id := fun he => hnew (List.mem_map.2 ⟨r', hr', he⟩)
      rw [hleases]
      exact ⟨List.mem_map.2 ⟨r', hmem, if_neg hne⟩, ho'⟩
    obtain ⟨hcount, hrest⟩ := h'.leases_expireAll others hnodup hw'
    rw [List.map_cons, expireAll_cons_fst hchange, expireAll_cons_snd, hcount, hrest, hleases,
      List.map_map]
    refine ⟨rfl, List.map_congr_left fun l _ => ?_⟩
    simp only [Function.comp_apply, List.mem_cons]
    by_cases hid : l.id = r.id
    · rw [if_pos hid, if_neg (hid ▸ hnew), if_pos (.inl hid)]
    · simp only [hid, if_false, false_or]

/-- A sweep records the due leases as expired, if the store takes them, and all of them count. -/
theorem Consistent.sweep_of_takes (h : L.Consistent) (now : Instant)
    (hw : Takes L.store ((L.leases.filter (·.isDue now)).map ({ · with status := .expired }))) :
    (L.sweep now).1 = (L.leases.filter (·.isDue now)).length ∧
    (L.sweep now).2.leases = L.leases.map fun l =>
      if l.id ∈ (L.leases.filter (·.isDue now)).map (·.id) then { l with status := .expired }
      else l := by
  have due_open : ∀ r ∈ L.leases.filter (·.isDue now), r ∈ L.leases ∧ r.status.isOver = false := by
    intro r hr
    obtain ⟨hmem, hd⟩ := List.mem_filter.1 hr
    exact ⟨hmem, isOver_of_isDue hd⟩
  have distinct : ((L.leases.filter (·.isDue now)).map (·.id)).Nodup :=
    h.nodup.sublist (List.filter_sublist.map _)
  exact h.leases_expireAll due_open distinct hw

/-- After a sweep the records are what readers were shown, if the store takes what the sweep
writes. -/
theorem Consistent.leases_sweep (h : L.Consistent) (now : Instant)
    (hw : Takes L.store ((L.leases.filter (·.isDue now)).map ({ · with status := .expired }))) :
    (L.sweep now).2.leases = L.leases.map (·.observedAt now) := by
  rw [(h.sweep_of_takes now hw).2]
  refine List.map_congr_left fun l hl => ?_
  by_cases hd : l.isDue now = true
  · rw [if_pos (List.mem_map_of_mem (List.mem_filter.2 ⟨hl, hd⟩)), Lease.observedAt_of_isDue hd]
  · rw [Lease.observedAt_of_not_isDue hd, if_neg]
    rintro hid
    obtain ⟨l', hl', heq⟩ := List.mem_map.1 hid
    obtain ⟨hmem, hd'⟩ := List.mem_filter.1 hl'
    obtain rfl := h.eq_of_id hmem hl heq
    exact hd hd'

end LabLease.Ledger
