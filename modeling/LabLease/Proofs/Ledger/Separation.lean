import LabLease.Proofs.Ledger.Pass

/-!
# Exporters do not interfere

What is asked of one exporter is answered by its own records. Two ledgers in which an exporter has
the same records (`Ledger.Alike`) may differ in everything else: in the records of other exporters,
in the places of the records and so in both look-up tables. They answer alike all the same what
concerns that exporter, and are alike afterwards (`Alike.claim`, `Alike.release`, `Alike.expire`);
and in each of them nothing has become of the other exporters (`Ledger.Spares`).

The first rests on the tables, which lead to the records of the exporter from either ledger; the
second on the writes, each of which is of one record (`spares_closed`, `spares_entered`). Both are
in `Reachable.apart_of_alike`, for any two ledgers that runs lead to.
-/

namespace LabLease.Ledger

open LeaseStore

variable {σ τ : Type} {L L' L'' : Ledger σ} {M : Ledger τ} {l : Lease} {b : Booking}
  {now : Instant} {r id id' : String} {pos pos' : Nat} {status : Status} {s : σ} {s' : τ}

/-- The records of an exporter, oldest first. -/
def recordsOf (L : Ledger σ) (exporter : String) : List Lease :=
  L.leases.filter (·.exporter == exporter)

theorem mem_recordsOf : l ∈ L.recordsOf r ↔ l ∈ L.leases ∧ l.exporter = r := by
  simp [recordsOf]

/-- What may be asked of a ledger that concerns one exporter alone. -/
def Concerns (L : Ledger σ) (r : String) : Action → Prop
  | .claim b _ _ => b.exporter = r
  | .release id _ | .expire id => ∃ l ∈ L.leases, l.id = id ∧ l.exporter = r
  | .sweep _ => False

/-! ## Other exporters -/

/-- All records that are not of the exporter are as they were, each in its place, and so is what
holds any other exporter. -/
structure Spares (r : String) (L L' : Ledger σ) : Prop where
  record {pos : Nat} {l : Lease} (he : l.exporter ≠ r) :
    L'.leases[pos]? = some l ↔ L.leases[pos]? = some l
  holder {exporter : String} (he : exporter ≠ r) :
    L'.holders.find? exporter = L.holders.find? exporter

theorem Spares.refl (r : String) (L : Ledger σ) : Spares r L L := ⟨fun _ => .rfl, fun _ => rfl⟩

theorem Spares.trans (h : Spares r L L') (h' : Spares r L' L'') : Spares r L L'' where
  record he := (h'.record he).trans (h.record he)
  holder he := (h'.holder he).trans (h.holder he)

/-- What holds another exporter at any time is as it was. -/
theorem Spares.holder?_eq (hs : Spares r L L') (h : L.Consistent) (h' : L'.Consistent)
    {exporter : String} (he : exporter ≠ r) (now : Instant) :
    L'.holder? exporter now = L.holder? exporter now := by
  refine Option.ext fun l => ?_
  rw [h'.holder?_eq_some_iff, h.holder?_eq_some_iff]
  have same (hl : l.exporter = exporter) : l ∈ L'.leases ↔ l ∈ L.leases := by
    simp only [List.mem_iff_getElem?, hs.record (hl.trans_ne he)]
  exact ⟨fun ⟨hl, hr, hlive⟩ => ⟨(same hr).1 hl, hr, hlive⟩,
    fun ⟨hl, hr, hlive⟩ => ⟨(same hr).2 hl, hr, hlive⟩⟩

/-- Closing a record is nothing to other exporters. -/
theorem spares_closed (hl : L.leases[pos]? = some l) (he : l.exporter = r) :
    Spares r L (L.closed pos l status s) where
  record {j l'} he' := by
    by_cases hj : pos = j
    · subst hj
      obtain ⟨hlt, -⟩ := List.getElem?_eq_some_iff.1 hl
      rw [closed, List.getElem?_set_self hlt, hl]
      constructor
      · rintro ⟨⟩
        exact absurd he he'
      · rintro ⟨⟩
        exact absurd he he'
    · rw [closed, List.getElem?_set_ne hj]
  holder he' := by rw [find?_holders_closed, if_neg (he.trans_ne he'.symm)]

/-- Entering a record is nothing to other exporters. -/
theorem spares_entered (he : l.exporter = r) : Spares r L (L.entered l s) where
  record {j l'} he' := by
    rw [entered, List.getElem?_append]
    split
    · rfl
    · next hj =>
      rw [List.getElem?_eq_none (Nat.not_lt.1 hj), List.getElem?_singleton]
      split
      · constructor
        · rintro ⟨⟩
          exact absurd he he'
        · rintro ⟨⟩
      · rfl
  holder he' := by
    rw [entered]
    split
    · rfl
    · rw [KeyMap.find?_insert, if_neg (he.trans_ne he'.symm)]

variable [LeaseStore σ] [LeaseStore τ]

/-- A claim is nothing to other exporters. -/
theorem ClaimOutcome.spares {a : Except Failure Lease} (ho : ClaimOutcome L b now id a L') :
    Spares b.exporter L L' := by
  cases ho with
  | outOfRange | held => exact .refl _ L
  | stuck | refused => exact ⟨fun _ => .rfl, fun _ => rfl⟩
  | cutShort _ hl he => exact spares_closed hl he
  | takeover _ hl he => exact .trans (spares_closed hl he) (spares_entered rfl)
  | granted => exact spares_entered rfl

/-- What concerns one exporter is nothing to the others, whatever the store does. -/
theorem Consistent.spares_after (h : L.Consistent) {a : Action} (hc : L.Concerns r a) :
    Spares r L (L.after a) := by
  -- A release or an expiry may close a record with the identifier, and there is one such record.
  have only {id : String} {pos : Nat} {l : Lease} (hc : ∃ l ∈ L.leases, l.id = id ∧ l.exporter = r)
      (hl : L.leases[pos]? = some l) (hid : l.id = id) : l.exporter = r := by
    obtain ⟨l₀, hl₀, hid₀, he⟩ := hc
    rwa [h.eq_of_id (List.mem_of_getElem? hl) hl₀ (hid.trans hid₀.symm)]
  cases a with
  | claim b now id =>
    obtain rfl : b.exporter = r := hc
    exact (claim_outcome h b now id).spares
  | release id now =>
    have ho := release_outcome h id now
    rw [after]
    generalize L.release id now = answer at ho
    obtain ⟨a, L'⟩ := answer
    cases ho with
    | unknown | ended => exact .refl _ _
    | refused => exact ⟨fun _ => .rfl, fun _ => rfl⟩
    | late hl hid | released hl hid => exact spares_closed hl (only hc hl hid)
  | expire id =>
    have ho := expire_outcome h id
    rw [after]
    generalize L.expire id = answer at ho
    obtain ⟨a, L'⟩ := answer
    cases ho with
    | unknown | ended => exact .refl _ _
    | refused => exact ⟨fun _ => .rfl, fun _ => rfl⟩
    | expired hl hid => exact spares_closed hl (only hc hl hid)
  | sweep => exact hc.elim

/-! ## The exporter itself -/

/-- Two ledgers with the same bounds, in which an exporter has the same records. -/
structure Alike (r : String) (L : Ledger σ) (M : Ledger τ) : Prop where
  bounds : M.bounds = L.bounds
  records : M.recordsOf r = L.recordsOf r

/-- Two answers to a claim that differ at most in the identifier of the new lease. -/
inductive ClaimedAlike (b : Booking) (bounds : SpanRange) (id' : String) :
    Except Failure Lease → Except Failure Lease → Prop
  | granted (l : Lease) : ClaimedAlike b bounds id' (.ok l) (.ok { l with id := id' })
  | outOfRange : ClaimedAlike b bounds id' (.error (.spanOutOfRange b.span bounds))
      (.error (.spanOutOfRange b.span bounds))
  | held (holder : String) : ClaimedAlike b bounds id' (.error (.exporterHeld b.exporter holder))
      (.error (.exporterHeld b.exporter holder))

omit [LeaseStore σ] [LeaseStore τ] in
/-- What is recorded of the exporter in one of them is recorded in the other. -/
theorem Alike.mem_iff (h : Alike r L M) (he : l.exporter = r) : l ∈ M.leases ↔ l ∈ L.leases := by
  have same : l ∈ M.recordsOf r ↔ l ∈ L.recordsOf r := by rw [h.records]
  simpa only [mem_recordsOf, he, and_true] using same

omit [LeaseStore σ] [LeaseStore τ] in
/-- The exporter is blocked in both or in neither. -/
theorem Alike.blocked_iff (h : Alike r L M) : M.Blocked now r ↔ L.Blocked now r := by
  constructor
  · rintro ⟨l, hl, he, hblock⟩
    exact ⟨l, (h.mem_iff he).1 hl, he, hblock⟩
  · rintro ⟨l, hl, he, hblock⟩
    exact ⟨l, (h.mem_iff he).2 hl, he, hblock⟩

omit [LeaseStore σ] [LeaseStore τ] in
/-- The same lease holds it. -/
theorem Alike.holder?_eq (h : Alike r L M) (hL : L.Consistent) (hM : M.Consistent)
    (now : Instant) : M.holder? r now = L.holder? r now := by
  refine Option.ext fun l => ?_
  rw [hM.holder?_eq_some_iff, hL.holder?_eq_some_iff]
  constructor
  · rintro ⟨hl, he, hlive⟩
    exact ⟨(h.mem_iff he).1 hl, he, hlive⟩
  · rintro ⟨hl, he, hlive⟩
    exact ⟨(h.mem_iff he).2 hl, he, hlive⟩

omit [LeaseStore σ] in
/-- The records of an exporter after one was closed. -/
theorem Consistent.recordsOf_closed (h : L.Consistent) (hl : L.leases[pos]? = some l) (r : String) :
    (L.closed pos l status s).recordsOf r =
      (L.recordsOf r).map fun l' => if l'.id = l.id then { l' with status := status } else l' := by
  rw [recordsOf, h.leases_closed hl, List.filter_map, recordsOf]
  congr 2
  funext l'
  rw [Function.comp_apply]
  split <;> rfl

omit [LeaseStore σ] [LeaseStore τ] in
/-- Ledgers that are alike in an exporter are so after the same record was closed in both. -/
theorem Alike.closed (h : Alike r L M) (hL : L.Consistent) (hM : M.Consistent)
    (hl : L.leases[pos]? = some l) (hl' : M.leases[pos']? = some l) :
    Alike r (L.closed pos l status s) (M.closed pos' l status s') :=
  ⟨h.bounds, by rw [hM.recordsOf_closed hl', hL.recordsOf_closed hl, h.records]⟩

/-- A claim that is granted settles the records of its exporter and puts the lease behind them. -/
theorem ClaimOutcome.recordsOf_of_ok (ho : ClaimOutcome L b now id (.ok l) L')
    (h : L.Consistent) :
    L'.bounds = L.bounds ∧ L'.recordsOf b.exporter =
      (L.recordsOf b.exporter).map (·.observedAt now) ++ [b.lease now id] := by
  have behind {K : Ledger σ} {s : σ} : (K.entered (b.lease now id) s).recordsOf b.exporter =
      K.recordsOf b.exporter ++ [b.lease now id] := by
    simp [recordsOf, entered]
  cases ho with
  | @takeover pos l₀ s _ _ hl he hd =>
    refine ⟨rfl, ?_⟩
    rw [behind, h.recordsOf_closed hl]
    congr 1
    refine List.map_congr_left fun l' hl' => ?_
    obtain ⟨hmem, he'⟩ := mem_recordsOf.1 hl'
    split
    · next hid =>
      obtain rfl := h.eq_of_id hmem (List.mem_of_getElem? hl) hid
      rw [Lease.observedAt_of_isDue hd]
    · next hid =>
      refine (Lease.observedAt_of_not_isDue fun hd' => hid ?_).symm
      rw [h.eq_of_exporter hmem (List.mem_of_getElem? hl) (he'.trans he.symm)
        (isOver_of_isDue hd') (isOver_of_isDue hd)]
  | granted _ hf =>
    refine ⟨rfl, ?_⟩
    rw [behind]
    congr 1
    refine ((List.map_congr_left fun l' hl' => ?_).trans (List.map_id _)).symm
    obtain ⟨hmem, he'⟩ := mem_recordsOf.1 hl'
    exact Lease.observedAt_of_isOver (h.isOver_of_find?_eq_none hf hmem he')

/-- A claim is answered alike, and leaves the ledgers alike if the new leases are. -/
theorem Alike.claim (h : Alike r L M) (hL : L.Consistent) (hM : M.Consistent)
    (he : b.exporter = r) (hw : Takes L.store (L.toWrite b now id))
    (hw' : Takes M.store (M.toWrite b now id')) :
    ClaimedAlike b L.bounds id' (L.claim b now id).1 (M.claim b now id').1 ∧
      (id = id' → Alike r (L.claim b now id).2 (M.claim b now id').2) := by
  subst he
  have ho := claim_outcome hL b now id
  have ho' := claim_outcome hM b now id'
  generalize L.claim b now id = answer at ho ⊢
  generalize M.claim b now id' = answer' at ho' ⊢
  obtain ⟨a, L'⟩ := answer
  obtain ⟨a', M'⟩ := answer'
  dsimp only at ho ho' ⊢
  by_cases hb : b.span ∈ L.bounds
  · have hb' : b.span ∈ M.bounds := h.bounds ▸ hb
    by_cases hbl : L.Blocked now b.exporter
    · -- Only one record of the exporter can block it, and it is in both ledgers.
      obtain ⟨⟨holder, rfl⟩, rfl⟩ := ho.of_blocked hL hb hbl
      obtain ⟨⟨holder', rfl⟩, rfl⟩ := ho'.of_blocked hM hb' (h.blocked_iff.2 hbl)
      cases ho with
      | held _ hl he hopen =>
        cases ho' with
        | held _ hl' he' hopen' =>
          have hmem := (h.mem_iff he').1 (List.mem_of_getElem? hl')
          obtain rfl := hL.eq_of_exporter (List.mem_of_getElem? hl) hmem (he.trans he'.symm) hopen
            hopen'
          exact ⟨.held _, fun _ => h⟩
    · obtain rfl := ho.ok_of_takes hL hb hbl hw
      obtain rfl := ho'.ok_of_takes hM hb' (mt h.blocked_iff.1 hbl) hw'
      refine ⟨.granted _, ?_⟩
      rintro rfl
      obtain ⟨hbounds, hrecords⟩ := ho.recordsOf_of_ok hL
      obtain ⟨hbounds', hrecords'⟩ := ho'.recordsOf_of_ok hM
      exact ⟨by rw [hbounds, hbounds', h.bounds], by rw [hrecords, hrecords', h.records]⟩
  · have hb' : b.span ∉ M.bounds := h.bounds ▸ hb
    cases ho with
    | outOfRange =>
      cases ho' with
      | outOfRange =>
        rw [h.bounds]
        exact ⟨.outOfRange, fun _ => h⟩
      | _ => contradiction
    | _ => contradiction

/-- Two endings of one request: the answers are one, and the ledgers are alike. -/
def EndAlike {α : Type} (r : String) (x : α × Ledger σ) (y : α × Ledger τ) : Prop :=
  x.1 = y.1 ∧ Alike r x.2 y.2

/-- A lease on the exporter is given back with the same answer in both. -/
theorem Alike.release (h : Alike r L M) (hL : L.Consistent) (hM : M.Consistent)
    (hl : l ∈ L.leases) (he : l.exporter = r)
    (hw : Takes L.store [{ l with status := closing l now }])
    (hw' : Takes M.store [{ l with status := closing l now }]) :
    EndAlike r (L.release l.id now) (M.release l.id now) := by
  obtain ⟨pos, hpos⟩ := List.mem_iff_getElem?.1 hl
  obtain ⟨pos', hpos'⟩ := List.mem_iff_getElem?.1 ((h.mem_iff he).2 hl)
  rw [hL.release_eq hpos rfl, hM.release_eq hpos' rfl]
  split
  · exact ⟨rfl, h⟩
  · rw [hw.save_eq, hw'.save_eq]
    exact ⟨rfl, h.closed hL hM hpos hpos'⟩

/-- A lease on the exporter is recorded as expired with the same answer in both. -/
theorem Alike.expire (h : Alike r L M) (hL : L.Consistent) (hM : M.Consistent)
    (hl : l ∈ L.leases) (he : l.exporter = r)
    (hw : Takes L.store [{ l with status := .expired }])
    (hw' : Takes M.store [{ l with status := .expired }]) :
    EndAlike r (L.expire l.id) (M.expire l.id) := by
  obtain ⟨pos, hpos⟩ := List.mem_iff_getElem?.1 hl
  obtain ⟨pos', hpos'⟩ := List.mem_iff_getElem?.1 ((h.mem_iff he).2 hl)
  rw [hL.expire_eq hpos rfl, hM.expire_eq hpos' rfl]
  split
  · exact ⟨rfl, h⟩
  · rw [hw.save_eq, hw'.save_eq]
    exact ⟨rfl, h.closed hL hM hpos hpos'⟩

/-! ## Both together -/

/-- What concerns one exporter alone leaves the records of the others in place, and what holds
them at any time. -/
structure Confined (r : String) (L : Ledger σ) : Prop where
  spares {a : Action} (hc : L.Concerns r a) : Spares r L (L.after a)
  holder {a : Action} (hc : L.Concerns r a) (ha : L.Admits a) {exporter : String}
    (he : exporter ≠ r) (now : Instant) :
    (L.after a).holder? exporter now = L.holder? exporter now

/-- Two ledgers answer alike what concerns one exporter alone, as long as their stores take what
is to be written, and in both of them it is nothing to the others. -/
structure Apart (r : String) (L : Ledger σ) (M : Ledger τ) : Prop where
  claim {b : Booking} {now : Instant} {id id' : String} (he : b.exporter = r)
    (hw : Takes L.store (L.toWrite b now id)) (hw' : Takes M.store (M.toWrite b now id')) :
    ClaimedAlike b L.bounds id' (L.claim b now id).1 (M.claim b now id').1 ∧
      (id = id' → Alike r (L.claim b now id).2 (M.claim b now id').2)
  holder (now : Instant) : M.holder? r now = L.holder? r now
  /-- Which leases are on the exporter is the same in both. -/
  shared {l : Lease} (he : l.exporter = r) : l ∈ M.leases ↔ l ∈ L.leases
  release {l : Lease} {now : Instant} (hl : l ∈ L.leases) (he : l.exporter = r)
    (hw : Takes L.store [{ l with status := closing l now }])
    (hw' : Takes M.store [{ l with status := closing l now }]) :
    EndAlike r (L.release l.id now) (M.release l.id now)
  expire {l : Lease} (hl : l ∈ L.leases) (he : l.exporter = r)
    (hw : Takes L.store [{ l with status := .expired }])
    (hw' : Takes M.store [{ l with status := .expired }]) :
    EndAlike r (L.expire l.id) (M.expire l.id)
  confined : Confined r L
  confined' : Confined r M

omit [LeaseStore τ] in
/-- Nothing that concerns one exporter alone reaches the others. -/
theorem Consistent.confined (h : L.Consistent) (r : String) : Confined r L where
  spares hc := h.spares_after hc
  holder hc ha _ he now :=
    (h.spares_after hc).holder?_eq h ((after_writes h ha).consistent h) he now

/-- An exporter with the same records in two ledgers that runs lead to is apart from all else in
them: what is answered about it in one is answered in the other, and what is done with it leaves the
other exporters alone. Reference: `LeaseLedger.claim`, §8. -/
theorem Reachable.apart_of_alike (hL : L.Reachable) (hM : M.Reachable) (h : Alike r L M) :
    Apart r L M where
  claim := h.claim hL.consistent hM.consistent
  holder := h.holder?_eq hL.consistent hM.consistent
  shared := h.mem_iff
  release := h.release hL.consistent hM.consistent
  expire := h.expire hL.consistent hM.consistent
  confined := hL.consistent.confined r
  confined' := hM.consistent.confined r

/-- Another ledger in which exporter `e1` is claimed when its holder is due, with a record of
another exporter between the two. -/
def elsewhere : List Action :=
  [.claim { exporter := "e1", span := .ofSecs 60 } 0 "a",
    .claim { exporter := "e3", span := .ofSecs 60 } 60000 "x",
    .claim { exporter := "e1", span := .ofSecs 60 } 60000 "d"]

/-- After four steps of the rehearsal `e1` has the records that it has there, though the store is
another one. It is held in both and so refused, and taken over in both as soon as its lease is
due; only in the rehearsal is `e2` refused. -/
theorem apart_rehearsed :
    ∃ (L : Ledger (FaultyStore MemoryStore)) (M : Ledger MemoryStore),
      L.Reachable ∧ M.Reachable ∧ Alike "e1" L M ∧ Apart "e1" L M ∧
      L.leases.map (·.id) = ["a", "b", "d"] ∧ M.leases.map (·.id) = ["a", "x", "d"] ∧
      (L.claim { exporter := "e1", span := .ofSecs 60 } 119999 "f").1 =
        .error (.exporterHeld "e1" "d") ∧
      ClaimedAlike { exporter := "e1", span := .ofSecs 60 } L.bounds "g"
        (L.claim { exporter := "e1", span := .ofSecs 60 } 120000 "f").1
        (M.claim { exporter := "e1", span := .ofSecs 60 } 120000 "g").1 ∧
      (L.claim { exporter := "e2", span := .ofSecs 60 } 59999 "f").1 =
        .error (.exporterHeld "e2" "b") := by
  have run : Run rehearsed (rehearsal.take 4) ((rehearsal.take 4).foldl after rehearsed) :=
    .cons (by decide) <| .cons (by decide) <| .cons (by decide) <| .cons (by decide) <| .nil _
  have run' : Run (.blank rehearsed.bounds MemoryStore.empty) elsewhere
      (elsewhere.foldl after (.blank rehearsed.bounds MemoryStore.empty)) :=
    .cons (by decide) <| .cons (by decide) <| .cons (by decide) <| .nil _
  have reachable : ((rehearsal.take 4).foldl after rehearsed).Reachable := ⟨_, _, .blank rfl, run⟩
  have reachable' : (elsewhere.foldl after (.blank rehearsed.bounds MemoryStore.empty)).Reachable :=
    ⟨_, _, .blank rfl, run'⟩
  have alike : Alike "e1" ((rehearsal.take 4).foldl after rehearsed)
      (elsewhere.foldl after (.blank rehearsed.bounds MemoryStore.empty)) :=
    ⟨by decide, by decide⟩
  have apart := Reachable.apart_of_alike reachable reachable' alike
  exact ⟨_, _, reachable, reachable', alike, apart, by decide, by decide, by decide,
    And.left <| apart.claim rfl ⟨by decide, by decide, trivial⟩ (takes_memory _ _), by decide⟩

end LabLease.Ledger
