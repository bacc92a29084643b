import LabLease.Proofs.Broker.Allocation
import LabLease.Proofs.Lease.Shown
import LabLease.Proofs.Ledger.Sweeping

/-!
# The broker said of its records

What a broker answers and what becomes of its records hangs on the records alone, as long as the
store takes what is written. The functions of this module say how: they know of no look-up tables
and of no store. `AllocateOutcome.eq_records`, `ReleaseOutcome.eq_records` and
`Consistent.sweep_eq_records` say that the broker does as they do, and
`Consistent.holder?_eq_records` and its companions that it reads the same.

None of them but the number of leases that a sweep finds depends on what has been recorded of an
expiry that has come: they can be given the records as they are shown at the time (`seenAt`).
-/

namespace LabLease

open Broker LeaseStore

namespace Records

variable {bounds : SpanRange} {ls : List Lease} {o : Order} {s : Selector} {listed : List Exporter}
  {now later : Instant} {id exporter : String} {p : Lease → Bool}

/-- The records as they are shown. -/
def seenAt (now : Instant) (ls : List Lease) : List Lease := ls.map (·.observedAt now)

/-- The records, of which those that `p` tells are made what they are shown as. -/
def settle (p : Lease → Bool) (now : Instant) (ls : List Lease) : List Lease :=
  ls.map fun l => if p l then l.observedAt now else l

/-- A lease on the exporter is not shown as over. -/
def blocks (ls : List Lease) (now : Instant) (exporter : String) : Bool :=
  ls.any fun l => l.exporter == exporter && !(l.observedAt now).status.isOver

/-- The first candidate that nothing blocks. -/
def choice? (ls : List Lease) (s : Selector) (listed : List Exporter) (now : Instant) :
    Option Exporter :=
  (candidates s listed).find? fun e => !blocks ls now e.id

/-- Leases the first candidate that nothing blocks. -/
def allocate (bounds : SpanRange) (ls : List Lease) (o : Order) (listed : List Exporter)
    (now : Instant) (id : String) : Except Failure Lease × List Lease :=
  match Selector.parse o.selector with
  | .error f => (.error f, ls)
  | .ok s =>
    if o.span ∉ bounds then (.error (.spanOutOfRange o.span bounds), ls)
    else if candidates s listed = [] then (.error (.noExporter o.selector), ls)
    else
      match choice? ls s listed now with
      | none => (.error (.allLeased o.selector), ls)
      | some e =>
        (.ok ((o.booking e.id).lease now id),
          settle (·.exporter == e.id) now ls ++ [(o.booking e.id).lease now id])

/-- Gives a lease back that is not shown as over. -/
def release (ls : List Lease) (id : String) (now : Instant) : Except Failure Lease × List Lease :=
  match ls.find? (·.id == id) with
  | none => (.error (.unknownLease id), ls)
  | some l =>
    if (l.observedAt now).status.isOver then
      (.error (.alreadyOver id (l.observedAt now).status), settle (·.id == id) now ls)
    else
      (.ok { l with status := .released },
        ls.map fun l' => if l'.id = id then { l' with status := .released } else l')

/-- Makes the records what they are shown as, and counts those that change. -/
def sweep (now : Instant) (ls : List Lease) : Nat × List Lease :=
  (ls.countP (·.isDue now), seenAt now ls)

/-- The lease with an identifier, as it is shown. -/
def lease (ls : List Lease) (id : String) (now : Instant) : Except Failure Lease :=
  match ls.find? (·.id == id) with
  | none => .error (.unknownLease id)
  | some l => .ok (l.observedAt now)

/-- The leases on exporters that satisfy a selector. -/
def select (s : Selector) (listed : List Exporter) (ls : List Lease) : List Lease :=
  let satisfied := KeyMap.ofList (listed.map fun e => (e.id, s.holds e.labels))
  ls.filter fun l => s.isEmpty || (satisfied.find? l.exporter).getD false

/-- The lease that holds an exporter. -/
def holder? (ls : List Lease) (exporter : String) (now : Instant) : Option Lease :=
  ls.find? fun l => l.exporter == exporter && l.isLive now

/-- Where nothing is due there is nothing to settle. -/
theorem settle_of_not_isDue (h : ∀ l ∈ ls, p l = true → ¬ l.isDue now = true) :
    settle p now ls = ls := by
  refine (List.map_congr_left fun l hl => ?_).trans (List.map_id ls)
  split
  · next hp => exact Lease.observedAt_of_not_isDue (h l hl hp)
  · rfl

/-- A lease that is granted is among the records afterwards. -/
theorem mem_allocate {l : Lease} (h : (allocate bounds ls o listed now id).1 = .ok l) :
    l ∈ (allocate bounds ls o listed now id).2 := by
  revert h
  rw [allocate]
  split
  · exact nofun
  · split
    · exact nofun
    · split
      · exact nofun
      · split
        · exact nofun
        · rintro ⟨⟩
          exact List.mem_append_right _ (List.mem_singleton_self _)

/-! ## Only what is shown counts -/

/-- What was shown is later shown as the records are. -/
theorem seenAt_seenAt (hle : now ≤ later) (ls : List Lease) :
    seenAt later (seenAt now ls) = seenAt later ls := by
  rw [seenAt, seenAt, List.map_map]
  exact List.map_congr_left fun l _ => Lease.observedAt_observedAt hle

/-- Making records what they are shown as does not show. -/
theorem seenAt_settle (hle : now ≤ later) (p : Lease → Bool) (ls : List Lease) :
    seenAt later (settle p now ls) = seenAt later ls := by
  rw [seenAt, settle, List.map_map]
  refine List.map_congr_left fun l _ => ?_
  rw [Function.comp_apply]
  split
  · exact Lease.observedAt_observedAt hle
  · rfl

theorem map_id_seenAt (now : Instant) (ls : List Lease) :
    (seenAt now ls).map (·.id) = ls.map (·.id) := by
  rw [seenAt, List.map_map]
  exact List.map_congr_left fun l _ => l.observedAt_id now

theorem find?_id_seenAt (now : Instant) (ls : List Lease) (id : String) :
    (seenAt now ls).find? (·.id == id) = (ls.find? (·.id == id)).map (·.observedAt now) := by
  rw [seenAt, List.find?_map]
  congr 2
  funext l
  rw [Function.comp_apply, Lease.observedAt_id]

theorem lease_seenAt (ls : List Lease) (id : String) (now : Instant) :
    lease (seenAt now ls) id now = lease ls id now := by
  rw [lease, lease, find?_id_seenAt]
  cases ls.find? (·.id == id) with
  | none => rfl
  | some l => simp [Lease.observedAt_observedAt (UInt64.le_refl now)]

theorem select_seenAt (s : Selector) (listed : List Exporter) (ls : List Lease) (now : Instant) :
    seenAt now (select s listed (seenAt now ls)) = seenAt now (select s listed ls) := by
  have shown : select s listed (seenAt now ls) = seenAt now (select s listed ls) := by
    rw [select, seenAt, List.filter_map]
    congr 2
    funext l
    rw [Function.comp_apply, Lease.observedAt_exporter]
  rw [shown, seenAt_seenAt (UInt64.le_refl now)]

theorem holder?_seenAt (ls : List Lease) (exporter : String) (now : Instant) :
    holder? (seenAt now ls) exporter now = holder? ls exporter now := by
  have shown : holder? (seenAt now ls) exporter now =
      (holder? ls exporter now).map (·.observedAt now) := by
    rw [holder?, seenAt, List.find?_map]
    congr 2
    funext l
    rw [Function.comp_apply, Lease.observedAt_exporter, Lease.isLive_observedAt]
  rw [shown]
  cases hl : holder? ls exporter now with
  | none => rfl
  | some l =>
    have live : l.isLive now = true := by
      have := List.find?_some hl
      simp only [Bool.and_eq_true] at this
      exact this.2
    rw [Option.map_some, Lease.observedAt_of_isLive live]

theorem countP_isLive_seenAt (ls : List Lease) (now : Instant) :
    (seenAt now ls).countP (·.isLive now) = ls.countP (·.isLive now) := by
  rw [seenAt, List.countP_map]
  congr 1
  funext l
  exact Lease.isLive_observedAt

theorem blocks_seenAt (ls : List Lease) (now : Instant) (exporter : String) :
    blocks (seenAt now ls) now exporter = blocks ls now exporter := by
  rw [blocks, seenAt, List.any_map]
  congr 1
  funext l
  rw [Function.comp_apply, Lease.observedAt_exporter,
    Lease.observedAt_observedAt (UInt64.le_refl now)]

/-- An allocation goes by what is shown. -/
theorem allocate_seenAt (bounds : SpanRange) (ls : List Lease) (o : Order) (listed : List Exporter)
    (now : Instant) (id : String) :
    (allocate bounds (seenAt now ls) o listed now id).1 =
        (allocate bounds ls o listed now id).1 ∧
      seenAt now (allocate bounds (seenAt now ls) o listed now id).2 =
        seenAt now (allocate bounds ls o listed now id).2 := by
  have idem := seenAt_seenAt (UInt64.le_refl now) ls
  have same (s : Selector) : choice? (seenAt now ls) s listed now = choice? ls s listed now := by
    simp only [choice?, blocks_seenAt]
  rw [allocate, allocate]
  cases Selector.parse o.selector with
  | error f => exact ⟨rfl, idem⟩
  | ok s =>
    dsimp only
    rw [same]
    split
    · exact ⟨rfl, idem⟩
    · split
      · exact ⟨rfl, idem⟩
      · cases choice? ls s listed now with
        | none => exact ⟨rfl, idem⟩
        | some e =>
          refine ⟨rfl, ?_⟩
          have settled (ls : List Lease) : seenAt now (settle (·.exporter == e.id) now ls) =
            seenAt now ls := seenAt_settle (UInt64.le_refl now) _ ls
          simp only [seenAt, List.map_append] at settled idem ⊢
          rw [settled, settled, idem]

/-- A release goes by what is shown. -/
theorem release_seenAt (ls : List Lease) (id : String) (now : Instant) :
    (release (seenAt now ls) id now).1 = (release ls id now).1 ∧
      seenAt now (release (seenAt now ls) id now).2 = seenAt now (release ls id now).2 := by
  have idem := seenAt_seenAt (UInt64.le_refl now) ls
  rw [release, release, find?_id_seenAt]
  cases ls.find? (·.id == id) with
  | none => exact ⟨rfl, idem⟩
  | some l =>
    dsimp only [Option.map_some]
    rw [Lease.observedAt_observedAt (UInt64.le_refl now)]
    split
    · refine ⟨rfl, ?_⟩
      rw [seenAt_settle (UInt64.le_refl now), seenAt_settle (UInt64.le_refl now), idem]
    · next ho =>
      have hd : ¬ l.isDue now = true := by
        rw [Lease.isOver_observedAt] at ho
        simp only [Bool.not_eq_true, Bool.or_eq_false_iff] at ho
        simp [ho.2]
      refine ⟨by rw [Lease.observedAt_of_not_isDue hd], ?_⟩
      rw [seenAt, seenAt, seenAt, List.map_map, List.map_map, List.map_map]
      refine List.map_congr_left fun l' _ => ?_
      simp only [Function.comp_apply, Lease.observedAt_id]
      split
      · by_cases hd' : l'.isDue now = true
        · rw [Lease.observedAt_of_isDue hd']
        · rw [Lease.observedAt_of_not_isDue hd']
      · exact Lease.observedAt_observedAt (UInt64.le_refl now)

end Records

end LabLease
