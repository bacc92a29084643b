import LabLease.Proofs.Broker.Records

/-!
# The broker does as its records say

For each thing that can be asked of a broker over a consistent ledger: the answer, and the records
afterwards, are those that `Records` tells, unless the store refused a write. An answer other than
the store's own failure means that it refused none (`AllocateOutcome.eq_records`,
`ReleaseOutcome.eq_records`); a sweep answers in any case, and has to be given a store that takes
what it writes (`Consistent.sweep_eq_records`). What is only read is always as the records say.
-/

namespace LabLease

open Broker LeaseStore

variable {σ : Type} {L L' : Ledger σ} {l : Lease} {o : Order} {s : Selector}
  {listed : List Exporter} {now : Instant} {id exporter r : String} {a : Except Failure Lease}

namespace Ledger

/-! ## Reading -/

/-- The first record with an identifier is the only one. -/
theorem Consistent.find?_id_eq_some (h : L.Consistent) (hl : l ∈ L.leases) (hid : l.id = id) :
    L.leases.find? (·.id == id) = some l := by
  cases hf : L.leases.find? (·.id == id) with
  | none => simpa [hid] using List.find?_eq_none.1 hf l hl
  | some l' =>
    have hid' : l'.id = id := by simpa using List.find?_some hf
    rw [h.eq_of_id (List.mem_of_find?_eq_some hf) hl (hid'.trans hid.symm)]

/-- The record that is looked up is the first with its identifier. -/
theorem Consistent.find?_id (h : L.Consistent) (id : String) :
    L.leases.find? (·.id == id) = (L.record? id).map (·.2) := by
  cases hr : L.record? id with
  | none =>
    refine List.find?_eq_none.2 fun l hl => ?_
    simpa using h.record?_eq_none_iff.1 hr l hl
  | some r =>
    obtain ⟨pos, l⟩ := r
    obtain ⟨hl, hid⟩ := h.record?_iff.1 hr
    exact h.find?_id_eq_some (List.mem_of_getElem? hl) hid

/-- Looking a lease up. -/
theorem Consistent.get_eq_records (h : L.Consistent) (id : String) :
    L.get id = match L.leases.find? (·.id == id) with
      | none => .error (.unknownLease id)
      | some l => .ok l := by
  rw [get, h.find?_id]
  cases L.record? id <;> rfl

theorem list_eq_records (L : Ledger σ) (s : Selector) (listed : List Exporter) :
    L.list s listed = Records.select s listed L.leases := by
  rw [list, Records.select]
  split
  · next he =>
    simp only [he, Bool.true_or]
    exact (List.filter_eq_self.2 fun _ _ => rfl).symm
  · next he => simp [he]

/-- Looking up what holds an exporter. -/
theorem Consistent.holder?_eq_records (h : L.Consistent) (exporter : String) (now : Instant) :
    L.holder? exporter now = Records.holder? L.leases exporter now := by
  cases hf : Records.holder? L.leases exporter now with
  | none =>
    refine Option.eq_none_iff_forall_ne_some.2 fun l hl => ?_
    obtain ⟨hmem, he, hlive⟩ := h.holder?_eq_some_iff.1 hl
    simpa [he, hlive] using List.find?_eq_none.1 hf l hmem
  | some l =>
    have holds := List.find?_some hf
    simp only [Bool.and_eq_true, beq_iff_eq] at holds
    exact h.holder?_eq_some_iff.2 ⟨List.mem_of_find?_eq_some hf, holds⟩

/-! ## Choosing an exporter -/

/-- What blocks an exporter is a lease that is not shown as over. -/
theorem blocked_iff_blocks :
    L.Blocked now exporter ↔ Records.blocks L.leases now exporter = true := by
  simp only [Blocked, Records.blocks, List.any_eq_true, Bool.and_eq_true, beq_iff_eq,
    Lease.isOver_observedAt, Bool.not_or, Bool.not_eq_true']

/-- The choice falls on the chosen exporter. -/
theorem chosen_of_choice? {e : Exporter} (hc : Records.choice? L.leases s listed now = some e) :
    Chosen L s listed now e.id := by
  obtain ⟨hfree, before, after, hsplit, hbefore⟩ := List.find?_eq_some_iff_append.1 hc
  refine chosen_of_split hsplit (fun e' he' => ?_) ?_
  · rw [blocked_iff_blocks]
    simpa using hbefore e' he'
  · rw [blocked_iff_blocks]
    simpa using hfree

/-- If there is a chosen exporter, the choice falls on it. -/
theorem choice?_of_chosen (hc : Chosen L s listed now r) :
    ∃ e, Records.choice? L.leases s listed now = some e ∧ e.id = r := by
  cases hchoice : Records.choice? L.leases s listed now with
  | none =>
    obtain ⟨e, he, rfl⟩ := eligible_iff.1 hc.eligible
    have := List.find?_eq_none.1 hchoice e he
    exact absurd (blocked_iff_blocks.2 (by simpa using this)) hc.not_blocked
  | some e => exact ⟨e, rfl, (chosen_of_choice? hchoice).eq hc⟩

/-- An order for which there is a chosen exporter gets a lease on it. -/
theorem allocate_of_chosen (hs : Selector.parse o.selector = .ok s) (hb : o.span ∈ L.bounds)
    (hc : Chosen L s listed now r) :
    Records.allocate L.bounds L.leases o listed now id =
      (.ok ((o.booking r).lease now id),
        Records.settle (·.exporter == r) now L.leases ++ [(o.booking r).lease now id]) := by
  obtain ⟨e, hchoice, rfl⟩ := choice?_of_chosen hc
  obtain ⟨e', he', -⟩ := eligible_iff.1 hc.eligible
  have hne : candidates s listed ≠ [] := List.ne_nil_of_mem he'
  simp only [Records.allocate, hs, not_not_intro hb, if_false, hne, hchoice]

/-! ## Settling records -/

/-- Settling, where one lease is due, is recording that lease as expired. -/
theorem Consistent.settle_eq_set {pos : Nat} {p : Lease → Bool} (h : L.Consistent)
    (hl : L.leases[pos]? = some l) (hd : l.isDue now = true) (hp : p l = true)
    (honly : ∀ l' ∈ L.leases, p l' = true → l'.isDue now = true → l' = l) :
    Records.settle p now L.leases = L.leases.set pos { l with status := .expired } := by
  rw [set_eq_map ({ · with status := .expired }) h.nodup hl]
  refine List.map_congr_left fun l' hl' => ?_
  by_cases hid : l'.id = l.id
  · obtain rfl := h.eq_of_id hl' (List.mem_of_getElem? hl) hid
    rw [if_pos hp, if_pos rfl, Lease.observedAt_of_isDue hd]
  · rw [if_neg hid]
    split
    · next hp' =>
      refine Lease.observedAt_of_not_isDue fun hd' => hid ?_
      rw [honly l' hl' hp' hd']
    · rfl

/-- Of an exporter without a holder there is nothing to settle. -/
theorem Consistent.settle_of_free (h : L.Consistent) (hf : L.holders.find? r = none) :
    Records.settle (·.exporter == r) now L.leases = L.leases := by
  refine Records.settle_of_not_isDue fun l hl he => ?_
  exact Lease.not_isDue_of_isOver (h.isOver_of_find?_eq_none hf hl (beq_iff_eq.1 he))

/-- Settling an exporter that a due lease holds is recording that lease as expired. -/
theorem Consistent.settle_of_due {pos : Nat} (h : L.Consistent) (hl : L.leases[pos]? = some l)
    (hd : l.isDue now = true) :
    Records.settle (·.exporter == l.exporter) now L.leases =
      L.leases.set pos { l with status := .expired } := by
  refine h.settle_eq_set hl hd (beq_self_eq_true _) fun l' hl' he hd' => ?_
  exact h.eq_of_exporter hl' (List.mem_of_getElem? hl) (beq_iff_eq.1 he) (isOver_of_isDue hd')
    (isOver_of_isDue hd)

/-- Settling a lease that is due is recording it as expired. -/
theorem Consistent.settle_id_of_due {pos : Nat} (h : L.Consistent) (hl : L.leases[pos]? = some l)
    (hd : l.isDue now = true) :
    Records.settle (·.id == l.id) now L.leases =
      L.leases.set pos { l with status := .expired } := by
  refine h.settle_eq_set hl hd (beq_self_eq_true _) fun l' hl' hid _ => ?_
  exact h.eq_of_id hl' (List.mem_of_getElem? hl) (beq_iff_eq.1 hid)

/-- Of a lease that is over there is nothing to settle. -/
theorem Consistent.settle_id_of_isOver (h : L.Consistent) (hl : l ∈ L.leases)
    (ho : l.status.isOver = true) : Records.settle (·.id == l.id) now L.leases = L.leases := by
  refine Records.settle_of_not_isDue fun l' hl' hid => ?_
  rw [h.eq_of_id hl' hl (beq_iff_eq.1 hid)]
  exact Lease.not_isDue_of_isOver ho

end Ledger

open Ledger

/-- What is granted is put behind the settled records of the exporter. -/
theorem Granted.leases_eq (hg : Granted L r now l L') (h : L.Consistent) :
    L'.leases = Records.settle (·.exporter == r) now L.leases ++ [l] := by
  obtain ⟨hf, heq⟩ | ⟨pos, l₀, hl, hh, hd, heq⟩ := hg
  · rw [heq, h.settle_of_free hf]
  · obtain ⟨l', hl', hid, rfl, -⟩ := h.holders_iff.1 hh
    obtain rfl := h.eq_of_id hl' (List.mem_of_getElem? hl) hid
    rw [heq, h.settle_of_due hl hd]

/-! ## Asking for a change -/

variable [LeaseStore σ]

/-- An order is filled by settling the records of an exporter and entering the lease on it. -/
theorem AllocateOutcome.granted_of_ok (ho : AllocateOutcome L o listed now id (.ok l) L')
    (h : L.Consistent) : ∃ r, l = (o.booking r).lease now id ∧
      L'.leases = Records.settle (·.exporter == r) now L.leases ++ [l] := by
  cases ho with
  | @claimed _ r _ _ _ _ _ _ hclaim =>
    exact ⟨r, hclaim.eq_lease_of_ok, (hclaim.granted_of_ok h).leases_eq h⟩

/-- An allocation does as the records say, if the store does not fail. -/
theorem AllocateOutcome.eq_records (ho : AllocateOutcome L o listed now id a L')
    (h : L.Consistent) (hsaved : ∀ fault, a ≠ .error (.store fault)) :
    (a, L'.leases) = Records.allocate L.bounds L.leases o listed now id := by
  cases ho with
  | badSelector hs => simp only [Records.allocate, hs]
  | outOfRange hs hb => simp only [Records.allocate, hs, if_pos hb]
  | @noExporter s hs hb hno =>
    have hnil : candidates s listed = [] := by
      refine List.eq_nil_iff_forall_not_mem.2 fun e he => hno e.id ?_
      exact eligible_iff.2 ⟨e, he, rfl⟩
    simp only [Records.allocate, hs, not_not_intro hb, if_false, hnil, if_true]
  | @allLeased s _ hs hb hr hall =>
    obtain ⟨e, he, rfl⟩ := eligible_iff.1 hr
    have hnil : candidates s listed ≠ [] := List.ne_nil_of_mem he
    have hnone : Records.choice? L.leases s listed now = none := by
      refine List.find?_eq_none.2 fun e he => ?_
      have := blocked_iff_blocks.1 (hall e.id (eligible_iff.2 ⟨e, he, rfl⟩))
      simp [this]
    simp only [Records.allocate, hs, not_not_intro hb, if_false, hnil, hnone]
  | claimed hs hb hc _ hclaim =>
    cases a with
    | error f =>
      cases hclaim with
      | outOfRange hb' => exact absurd hb hb'
      | held _ hl he ho hd => exact absurd ⟨_, List.mem_of_getElem? hl, he, ho, hd⟩ hc.not_blocked
      | stuck | cutShort | refused => exact absurd rfl (hsaved _)
    | ok l =>
      obtain rfl := hclaim.eq_lease_of_ok
      rw [allocate_of_chosen hs hb hc, (hclaim.granted_of_ok h).leases_eq h, Order.booking_exporter]

/-- A release does as the records say, if the store does not fail. -/
theorem Ledger.ReleaseOutcome.eq_records (ho : ReleaseOutcome L id now a L') (h : L.Consistent)
    (hsaved : ∀ fault, a ≠ .error (.store fault)) :
    (a, L'.leases) = Records.release L.leases id now := by
  rw [Records.release]
  cases ho with
  | unknown hid =>
    have hnone : L.leases.find? (·.id == id) = none := by
      refine List.find?_eq_none.2 fun l hl => ?_
      simpa using hid l hl
    rw [hnone]
  | ended hl hid ho =>
    have hmem := List.mem_of_getElem? hl
    rw [h.find?_id_eq_some hmem hid]
    subst hid
    simp only [Lease.observedAt_of_isOver ho, ho, if_true, h.settle_id_of_isOver hmem ho]
  | refused => exact absurd rfl (hsaved _)
  | late hl hid hd =>
    rw [h.find?_id_eq_some (List.mem_of_getElem? hl) hid]
    subst hid
    have hover : Status.expired.isOver = true := rfl
    simp only [Lease.observedAt_of_isDue hd, hover, if_true, h.settle_id_of_due hl hd, closed]
  | @released _ l _ hl hid ho hd =>
    rw [h.find?_id_eq_some (List.mem_of_getElem? hl) hid]
    subst hid
    have hd' : ¬ l.isDue now = true := by simp [hd]
    simp only [Lease.observedAt_of_not_isDue hd', ho, Bool.false_eq_true, if_false,
      h.leases_closed hl]

/-- A sweep does as the records say, if the store takes what it writes. -/
theorem Ledger.Consistent.sweep_eq_records (h : L.Consistent) (now : Instant)
    (hw : Takes L.store ((L.leases.filter (·.isDue now)).map ({ · with status := .expired }))) :
    ((L.sweep now).1, (L.sweep now).2.leases) = Records.sweep now L.leases := by
  rw [(h.sweep_of_takes now hw).1, h.leases_sweep now hw, Records.sweep,
    List.countP_eq_length_filter]
  rfl

end LabLease
