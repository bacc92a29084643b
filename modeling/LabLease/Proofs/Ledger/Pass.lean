import LabLease.Proofs.Ledger.Release
import LabLease.Proofs.Ledger.Sweeping
import LabLease.Proofs.Lease.Shown

/-!
# A sweep among other callers

A sweep finds out once which leases are due, and then takes them one after the other. Other callers
are not kept out in between: each lease has its turn (`Ledger.Turn`), and before it anything may
have been asked of the ledger (`Ledger.Pass`). What the sweep found due is then no longer up to
date, and recording a lease as expired does not look at the clock again.

That this is safe rests on the records. They keep their places, identifiers and deadlines, and what
is over stays over, so that at its turn a lease that was due is still recorded, past its deadline,
and either open or not to be touched. `Pass.meets` is the whole of what a pass should do; where
nothing is asked in between, it is what `Ledger.sweep` does (`Pass.expireAll_eq`).
-/

namespace LabLease

variable {l l' : Lease}

/-- What may become of a record differs from it in status alone. -/
theorem Lease.MayBecome.with_status (hb : l.MayBecome l') (status : Status) :
    { l' with status := status } = { l with status := status } := by
  obtain rfl | ⟨-, _, -, rfl⟩ := hb <;> rfl

theorem Lease.MayBecome.id_eq (hb : l.MayBecome l') : l'.id = l.id := by
  obtain rfl | ⟨-, _, -, rfl⟩ := hb <;> rfl

theorem Lease.MayBecome.expiresAt_eq (hb : l.MayBecome l') : l'.expiresAt = l.expiresAt := by
  obtain rfl | ⟨-, _, -, rfl⟩ := hb <;> rfl

namespace Ledger

open LeaseStore

variable {σ : Type}

/-- The turn of one lease in a pass. -/
structure Turn (σ : Type) where
  /-- What others have asked of the ledger since the turn before. -/
  asked : List Action
  /-- The lease that is to be recorded as expired. -/
  id : String
  /-- The ledger that the turn meets. -/
  found : Ledger σ
  /-- What the ledger answers. -/
  answer : Except Failure Bool
  /-- The ledger after the turn. -/
  left : Ledger σ

/-- Whether the pass counts the turn. -/
def Turn.counts (t : Turn σ) : Bool :=
  match t.answer with
  | .ok changed => changed
  | .error _ => false

/-- What the pass answers: how many of its turns it counted. -/
def counted (turns : List (Turn σ)) : Nat := turns.countP (·.counts)

/-- Whether the turn has changed the records. -/
def Turn.Moves (t : Turn σ) : Prop := t.left.leases ≠ t.found.leases

instance (t : Turn σ) : Decidable t.Moves := inferInstanceAs (Decidable (_ ≠ _))

/-- The leases whose turns have changed the records. -/
def moved (turns : List (Turn σ)) : List String := (turns.filter fun t => t.Moves).map (·.id)

variable [LeaseStore σ] {L L' : Ledger σ} {turns : List (Turn σ)} {t : Turn σ} {l : Lease}
  {id : String} {ids : List String} {pos : Nat} {now : Instant}

/-- The turns of some leases, one after the other, with anything asked by others before each. -/
inductive Pass : Ledger σ → List String → List (Turn σ) → Ledger σ → Prop
  | nil (L : Ledger σ) : Pass L [] [] L
  | cons {L found left L' : Ledger σ} {asked : List Action} {id : String} {ids : List String}
      {answer : Except Failure Bool} {turns : List (Turn σ)} (ha : Run L asked found)
      (he : found.expire id = (answer, left)) (hp : Pass left ids turns L') :
      Pass L (id :: ids) (⟨asked, id, found, answer, left⟩ :: turns) L'

/-- What a turn should do to the record that it finds at `pos`, which is `l`. -/
structure TurnSpec (t : Turn σ) (pos : Nat) (l : Lease) : Prop where
  /-- A lease that is over stays as it is. -/
  ended (ho : l.status = .released ∨ l.status = .expired) :
    t.answer = .ok false ∧ t.left = t.found
  /-- An open lease is recorded as expired, which frees its exporter and changes nothing else. -/
  expired {s : σ} (ho : l.status = .pending ∨ l.status = .active)
    (hw : save t.found.store { l with status := .expired } = (.ok (), s)) :
    t.answer = .ok true ∧ t.found.Frees pos { l with status := .expired } t.left
  /-- If the store refuses that, nothing has changed. -/
  refused {fault : StoreFault} {s : σ} (ho : l.status = .pending ∨ l.status = .active)
    (hw : save t.found.store { l with status := .expired } = (.error fault, s)) :
    t.answer = .error (.store fault) ∧ t.left = { t.found with store := s } ∧
      (Careful σ → load t.left.store = load t.found.store)

/-- What a pass at `now` should do, whatever was asked in between and whichever writes failed. -/
structure PassSpec (L : Ledger σ) (now : Instant) (turns : List (Turn σ)) (L' : Ledger σ) :
    Prop where
  /-- Every lease that was due has its turn, whatever became of those before it. -/
  all : turns.map (·.id) = L.due now
  /-- At its turn its record is in its place, as it was or closed, and still past its deadline. -/
  turn {t : Turn σ} (ht : t ∈ turns) : ∃ (pos : Nat) (l₀ l : Lease),
    L.leases[pos]? = some l₀ ∧ l₀.id = t.id ∧ l₀.status = .active ∧ l₀.expiresAt ≤ now ∧
    t.found.leases[pos]? = some l ∧ l₀.MayBecome l ∧ l.id = t.id ∧ l.expiresAt ≤ now ∧
    TurnSpec t pos l
  /-- No turn misses its lease. -/
  known {t : Turn σ} (ht : t ∈ turns) (id : String) : t.answer ≠ .error (.unknownLease id)
  /-- A turn changes the records exactly if its lease is still open and the store takes it. -/
  moves_iff {t : Turn σ} (ht : t ∈ turns) : t.Moves ↔
    ∃ l ∈ t.found.leases, l.id = t.id ∧ (l.status = .pending ∨ l.status = .active) ∧
      (save t.found.store { l with status := .expired }).1 = .ok ()
  /-- What the pass has moved was due and is recorded as expired from then on. -/
  recorded {id : String} (hm : id ∈ moved turns) : ∃ (pos : Nat) (l : Lease),
    L.leases[pos]? = some l ∧ l.id = id ∧ l.status = .active ∧ l.expiresAt ≤ now ∧
    L'.leases[pos]? = some { l with status := .expired }
  /-- No lease is moved twice. -/
  distinct : (moved turns).Nodup
  /-- The answer is the number of leases that were moved. -/
  count : counted turns = (moved turns).length
  /-- If nothing is asked in between, the pass is a sweep. -/
  alone (hq : ∀ t ∈ turns, t.asked = []) : L.sweep now = (counted turns, L')
  /-- If moreover the store takes everything, nothing is left for another one. -/
  settled (hq : ∀ t ∈ turns, t.asked = [])
    (hw : Takes L.store ((L.leases.filter (·.isDue now)).map ({ · with status := .expired }))) :
    L'.due now = [] ∧ L'.sweep now = (0, L')

/-! ## One turn -/

/-- Recording a lease as expired leaves one that is over alone. An open one is written as expired,
and closed if that succeeds. -/
theorem Consistent.expire_eq (h : L.Consistent) (hl : L.leases[pos]? = some l) (hid : l.id = id) :
    L.expire id =
      if l.status.isOver then (.ok false, L)
      else match save L.store { l with status := .expired } with
        | (.error fault, s) => (.error (.store fault), { L with store := s })
        | (.ok (), s) => (.ok true, L.closed pos l .expired s) := by
  have hout := expire_outcome h id
  generalize L.expire id = answer at hout ⊢
  obtain ⟨a, L'⟩ := answer
  cases hout with
  | unknown hno => exact absurd hid (hno l (List.mem_of_getElem? hl))
  | ended hl' hid' ho =>
    obtain ⟨rfl, rfl⟩ := h.same_record hl hl' (hid.trans hid'.symm)
    rw [if_pos ho]
  | refused hl' hid' ho hs =>
    obtain ⟨rfl, rfl⟩ := h.same_record hl hl' (hid.trans hid'.symm)
    rw [if_neg (ho ▸ Bool.false_ne_true), hs]
  | expired hl' hid' ho hs =>
    obtain ⟨rfl, rfl⟩ := h.same_record hl hl' (hid.trans hid'.symm)
    rw [if_neg (ho ▸ Bool.false_ne_true), hs]
    rfl

/-- A turn does to the record of its lease what it should. -/
theorem Consistent.turn_meets (h : t.found.Consistent)
    (he : t.found.expire t.id = (t.answer, t.left)) (hl : t.found.leases[pos]? = some l)
    (hid : l.id = t.id) : TurnSpec t pos l where
  ended ho := by
    rw [h.expire_eq hl hid, if_pos (Status.isOver_eq_true_iff.2 ho)] at he
    obtain ⟨ha, hleft⟩ := Prod.mk.inj he
    exact ⟨ha.symm, hleft.symm⟩
  expired {s} hopen hw := by
    have ho := Status.isOver_eq_false_iff.2 hopen
    rw [h.expire_eq hl hid, if_neg (ho ▸ Bool.false_ne_true), hw] at he
    obtain ⟨ha, hleft⟩ := Prod.mk.inj he
    exact ⟨ha.symm, hleft ▸ h.frees_closed hl ho rfl⟩
  refused {fault s} hopen hw := by
    have ho := Status.isOver_eq_false_iff.2 hopen
    rw [h.expire_eq hl hid, if_neg (ho ▸ Bool.false_ne_true), hw] at he
    obtain ⟨ha, hleft⟩ := Prod.mk.inj he
    exact ⟨ha.symm, hleft.symm, fun hc => hleft ▸ hc hw⟩

/-- A turn finds its lease over, or moves it, or is refused by the store. -/
theorem TurnSpec.cases (h : TurnSpec t pos l) (hl : t.found.leases[pos]? = some l) :
    (l.status.isOver = true ∧ t.answer = .ok false ∧ ¬ t.Moves) ∨
    (l.status.isOver = false ∧ (save t.found.store { l with status := .expired }).1 = .ok () ∧
      t.answer = .ok true ∧ t.left.leases = t.found.leases.set pos { l with status := .expired } ∧
      t.Moves) ∨
    ∃ fault, l.status.isOver = false ∧
      (save t.found.store { l with status := .expired }).1 = .error fault ∧
      t.answer = .error (.store fault) ∧ ¬ t.Moves := by
  cases ho : l.status.isOver with
  | true =>
    obtain ⟨ha, hleft⟩ := h.ended (Status.isOver_eq_true_iff.1 ho)
    exact .inl ⟨rfl, ha, fun hm => hm (by rw [hleft])⟩
  | false =>
    have hopen := Status.isOver_eq_false_iff.1 ho
    rcases hw : save t.found.store { l with status := .expired } with ⟨fault | _, s⟩
    · obtain ⟨ha, hleft, -⟩ := h.refused hopen hw
      exact .inr (.inr ⟨fault, rfl, rfl, ha, fun hm => hm (by rw [hleft])⟩)
    · obtain ⟨ha, hf⟩ := h.expired hopen hw
      refine .inr (.inl ⟨rfl, rfl, ha, hf.leases, fun hsame => ?_⟩)
      -- Were the records the same, the lease would have been over before.
      rw [hf.leases] at hsame
      obtain ⟨hlt, -⟩ := List.getElem?_eq_some_iff.1 hl
      have hset : (t.found.leases.set pos { l with status := .expired })[pos]? =
          some { l with status := .expired } := List.getElem?_set_self hlt
      rw [hsame, hl] at hset
      rw [Option.some.inj hset] at ho
      cases ho

/-- The pass counts the turns that change the records. -/
theorem TurnSpec.counts_eq (h : TurnSpec t pos l) (hl : t.found.leases[pos]? = some l) :
    t.counts = decide t.Moves := by
  obtain ⟨-, ha, hm⟩ | ⟨-, -, ha, -, hm⟩ | ⟨fault, -, -, ha, hm⟩ := h.cases hl
  · rw [Turn.counts, ha, decide_eq_false hm]
  · rw [Turn.counts, ha, decide_eq_true hm]
  · rw [Turn.counts, ha, decide_eq_false hm]

/-- No turn that finds its lease answers that there is none. -/
theorem TurnSpec.known (h : TurnSpec t pos l) (hl : t.found.leases[pos]? = some l) (id : String) :
    t.answer ≠ .error (.unknownLease id) := by
  obtain ⟨-, ha, -⟩ | ⟨-, -, ha, -⟩ | ⟨fault, -, -, ha, -⟩ := h.cases hl <;>
    rw [ha] <;> rintro ⟨⟩

/-- A turn moves its lease if it is open and the store takes it. -/
theorem TurnSpec.moves_iff (h : TurnSpec t pos l) (hl : t.found.leases[pos]? = some l) :
    t.Moves ↔ l.status.isOver = false ∧
      (save t.found.store { l with status := .expired }).1 = .ok () := by
  obtain ⟨ho, -, hm⟩ | ⟨ho, hw, -, -, hm⟩ | ⟨fault, -, hw, -, hm⟩ := h.cases hl
  · simp [hm, ho]
  · simp [hm, ho, hw]
  · simp [hm, hw]

/-! ## A pass -/

/-- The turns of a pass are those of its leases, in their order. -/
theorem Pass.map_id (hp : Pass L ids turns L') : turns.map (·.id) = ids := by
  induction hp with
  | nil => rfl
  | cons _ _ _ ih => rw [List.map_cons, ih]

/-- Each turn asks for its lease, at some moment of the pass. -/
theorem Pass.turn (hp : Pass L ids turns L') (h : L.Consistent) (ht : t ∈ turns) :
    t.found.expire t.id = (t.answer, t.left) ∧ Writes L t.found ∧ Writes t.left L' := by
  -- What the whole pass does to the ledger has to be known for the later turns.
  suffices Writes L L' ∧ ∀ t ∈ turns,
      t.found.expire t.id = (t.answer, t.left) ∧ Writes L t.found ∧ Writes t.left L' from
    this.2 t ht
  clear ht
  induction hp with
  | nil => exact ⟨.refl, by simp⟩
  | @cons L found left L' asked id ids answer turns ha he _ ih =>
    have before : Writes L found := ha.writes h
    have hfound : found.Consistent := before.consistent h
    have now : Writes found left := by
      have := (expire_outcome hfound id).writes
      rwa [he] at this
    obtain ⟨rest, later⟩ := ih (now.consistent hfound)
    refine ⟨(before.trans now).trans rest, List.forall_mem_cons.2 ⟨⟨he, before, rest⟩, ?_⟩⟩
    intro t ht
    obtain ⟨he', hw, hw'⟩ := later t ht
    exact ⟨he', (before.trans now).trans hw, hw'⟩

/-- Where nothing is asked in between, a pass is the loop over its leases. -/
theorem Pass.expireAll_eq (hp : Pass L ids turns L') (hq : ∀ t ∈ turns, t.asked = []) :
    L.expireAll ids = (counted turns, L') := by
  induction hp with
  | nil => rfl
  | @cons L found left L' asked id ids answer turns ha he _ ih =>
    obtain ⟨hnone, hq'⟩ := List.forall_mem_cons.1 hq
    obtain rfl : asked = [] := hnone
    cases ha
    have rest := ih hq'
    rw [expireAll, he, counted, List.countP_cons]
    rcases answer with _ | _ | _
    · exact rest
    · exact rest
    · simp only [rest]
      rfl

/-- What was due at the start of a pass is found at its turn, past its deadline, and the turn does
with it what it should. -/
theorem Pass.turn_meets (hp : Pass L (L.due now) turns L') (h : L.Consistent) (ht : t ∈ turns) :
    ∃ (pos : Nat) (l₀ l : Lease), L.leases[pos]? = some l₀ ∧ l₀.id = t.id ∧
      l₀.isDue now = true ∧ t.found.leases[pos]? = some l ∧ l₀.MayBecome l ∧ TurnSpec t pos l := by
  have hdue : t.id ∈ L.due now := hp.map_id ▸ List.mem_map_of_mem ht
  obtain ⟨l₀, hl₀, hid⟩ := List.mem_map.1 hdue
  obtain ⟨hmem, hd⟩ := List.mem_filter.1 hl₀
  obtain ⟨pos, hpos⟩ := List.mem_iff_getElem?.1 hmem
  obtain ⟨he, hw, -⟩ := hp.turn h ht
  obtain ⟨l, hl, hb⟩ := hw.grows hpos
  exact ⟨pos, l₀, l, hpos, hid, hd, hl, hb,
    (hw.consistent h).turn_meets he hl (hb.id_eq.trans hid)⟩

/-- What a turn has moved is recorded as expired when the pass is over. -/
theorem Pass.recorded (hp : Pass L (L.due now) turns L') (h : L.Consistent) (ht : t ∈ turns)
    (hm : t.Moves) : ∃ (pos : Nat) (l : Lease), L.leases[pos]? = some l ∧ l.id = t.id ∧
      l.isDue now = true ∧ L'.leases[pos]? = some { l with status := .expired } := by
  obtain ⟨pos, l₀, l, hpos, hid, hd, hl, hb, hturn⟩ := hp.turn_meets h ht
  refine ⟨pos, l₀, hpos, hid, hd, ?_⟩
  obtain ⟨-, -, hm'⟩ | ⟨-, -, -, hleft, -⟩ | ⟨-, -, -, -, hm'⟩ := hturn.cases hl
  · exact absurd hm hm'
  · obtain ⟨hlt, -⟩ := List.getElem?_eq_some_iff.1 hl
    have hset : t.left.leases[pos]? = some { l with status := .expired } := by
      rw [hleft]
      exact List.getElem?_set_self hlt
    obtain ⟨l', hl', rfl | ⟨ho, -⟩⟩ := (hp.turn h ht).2.2.grows hset
    · rw [hl', hb.with_status]
    · cases ho
  · exact absurd hm hm'

/-- A pass that nobody comes between and that the store takes leaves nothing due. -/
theorem Consistent.due_sweep (h : L.Consistent)
    (hw : Takes L.store ((L.leases.filter (·.isDue now)).map ({ · with status := .expired }))) :
    (L.sweep now).2.due now = [] := by
  rw [due, h.leases_sweep now hw, List.map_eq_nil_iff, List.filter_eq_nil_iff]
  intro l hl
  obtain ⟨l, -, rfl⟩ := List.mem_map.1 hl
  by_cases hd : l.isDue now = true
  · rw [Lease.observedAt_of_isDue hd]
    exact Lease.not_isDue_of_isOver rfl
  · rwa [Lease.observedAt_of_not_isDue hd]

/-- In every ledger that a run leads to, a pass takes each lease that was due in turn, and moves it
to expired unless it was closed meanwhile or the store refuses. It misses none, moves none early or
twice, and counts those it has moved. That holds whatever is asked between the turns, since a record
keeps its place and is only ever closed. Reference: `ExpirySweeper.sweep_once`, §4.4. -/
theorem Reachable.pass_meets (hr : L.Reachable) (hp : Pass L (L.due now) turns L') :
    PassSpec L now turns L' where
  all := hp.map_id
  turn {t} ht := by
    obtain ⟨pos, l₀, l, hpos, hid, hd, hl, hb, hturn⟩ := hp.turn_meets hr.consistent ht
    obtain ⟨hs, hdeadline⟩ := Lease.isDue_iff.1 hd
    exact ⟨pos, l₀, l, hpos, hid, hs, hdeadline, hl, hb, hb.id_eq.trans hid,
      hb.expiresAt_eq ▸ hdeadline, hturn⟩
  known {t} ht id := by
    obtain ⟨pos, l₀, l, -, -, -, hl, -, hturn⟩ := hp.turn_meets hr.consistent ht
    exact hturn.known hl id
  moves_iff {t} ht := by
    obtain ⟨pos, l₀, l, -, hid, -, hl, hb, hturn⟩ := hp.turn_meets hr.consistent ht
    have hfound := (hp.turn hr.consistent ht).2.1.consistent hr.consistent
    have hmem := List.mem_of_getElem? hl
    rw [hturn.moves_iff hl]
    simp only [← Status.isOver_eq_false_iff]
    constructor
    · exact fun hopen => ⟨l, hmem, hb.id_eq.trans hid, hopen⟩
    · rintro ⟨l', hl', hid', hopen⟩
      obtain rfl := hfound.eq_of_id hl' hmem (hid'.trans (hb.id_eq.trans hid).symm)
      exact hopen
  recorded hm := by
    obtain ⟨t, ht, rfl⟩ := List.mem_map.1 hm
    obtain ⟨ht, hmoves⟩ := List.mem_filter.1 ht
    obtain ⟨pos, l, hl, hid, hd, hl'⟩ := hp.recorded hr.consistent ht (of_decide_eq_true hmoves)
    obtain ⟨hs, hdeadline⟩ := Lease.isDue_iff.1 hd
    exact ⟨pos, l, hl, hid, hs, hdeadline, hl'⟩
  distinct := by
    have all : (turns.map (·.id)).Nodup := by
      rw [hp.map_id]
      exact hr.consistent.nodup.sublist (List.filter_sublist.map _)
    exact all.sublist (List.filter_sublist.map _)
  count := by
    rw [counted, moved, List.length_map, List.countP_eq_length_filter]
    refine congrArg List.length (List.filter_congr fun t ht => ?_)
    obtain ⟨pos, l₀, l, -, -, -, hl, -, hturn⟩ := hp.turn_meets hr.consistent ht
    exact hturn.counts_eq hl
  alone hq := hp.expireAll_eq hq
  settled hq hw := by
    have hsweep : L.sweep now = (counted turns, L') := hp.expireAll_eq hq
    have hdue : L'.due now = [] := by
      have := hr.consistent.due_sweep hw
      rwa [hsweep] at this
    rw [sweep, hdue]
    exact ⟨rfl, rfl⟩

/-- A ledger over a store that refuses its seventh write. -/
def uncrowded : Ledger (FaultyStore MemoryStore) :=
  .blank ⟨.ofSecs 60, .ofSecs 3600⟩
    { label := "rehearsal"
      inner := .empty
      faultAt := fun n => if n = 6 then some (.device "disk full") else none }

/-- Three exporters are claimed. -/
def crowding : List Action :=
  [.claim { exporter := "e1", span := .ofSecs 60 } 0 "a",
    .claim { exporter := "e2", span := .ofSecs 60 } 0 "b",
    .claim { exporter := "e3", span := .ofSecs 60 } 0 "c"]

/-- One lease is given back too late, and an exporter is claimed anew. -/
def crossing : List Action :=
  [.release "b" 60000, .claim { exporter := "e1", span := .ofSecs 60 } 60000 "d"]

/-- Of three leases that are due the pass moves the first. The second is found to be over, since it
was given back too late just before, and the store refuses the third. -/
theorem pass_meets_crossed :
    ∃ (L L' : Ledger (FaultyStore MemoryStore)) (turns : List (Turn (FaultyStore MemoryStore))),
      L.Reachable ∧ Pass L (L.due 60000) turns L' ∧ PassSpec L 60000 turns L' ∧
      turns.map (fun t => (t.id, t.asked, t.counts)) =
        [("a", [], true), ("b", crossing, false), ("c", [], false)] ∧
      moved turns = ["a"] ∧ counted turns = 1 ∧
      L'.leases.map (fun l => (l.id, l.status)) =
        [("a", .expired), ("b", .expired), ("c", .active), ("d", .active)] := by
  have claims : Run uncrowded crowding (crowding.foldl after uncrowded) :=
    .cons (by decide) <| .cons (by decide) <| .cons (by decide) <| .nil _
  have reachable : (crowding.foldl after uncrowded).Reachable := ⟨_, _, .blank rfl, claims⟩
  have others : Run ((crowding.foldl after uncrowded).expire "a").2 crossing
      (crossing.foldl after ((crowding.foldl after uncrowded).expire "a").2) :=
    .cons (by decide) <| .cons (by decide) <| .nil _
  have pass : Pass (crowding.foldl after uncrowded) ["a", "b", "c"] _ _ :=
    .cons (.nil _) rfl <| .cons others rfl <| .cons (.nil _) rfl <| .nil _
  have due : (crowding.foldl after uncrowded).due 60000 = ["a", "b", "c"] := by decide
  rw [← due] at pass
  exact ⟨_, _, _, reachable, pass, Reachable.pass_meets reachable pass, by decide, by decide,
    by decide, by decide⟩

end Ledger

end LabLease
