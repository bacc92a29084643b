import LabLease.Proofs.Ledger.Run
import LabLease.Watch

/-!
# Timetables of a watch

While a watch runs, its owner sets the clock, works with the ledger, waits, and may at last stop the
watch (`Watch.Deed`). To shut it down takes two steps: the owner tells the watch to stop, and waits
for it to have stopped. Between the two it can think better of it and drop the handle, so the second
step may be missing.

A timetable puts the deeds of the owner and the passes of the watch into one sequence: the deeds at
the times that the waits lead to, the passes at 0, at the period, at twice the period, and so on
(`Watch.Timetable`). Every pass has its place before the deeds of later times and behind those of
earlier ones, and where both fall on one time either may come first. When the watch was shut down,
or its handle dropped without that it was told to stop, there are no more passes
(`Timetable.final`). As long as it was only told to stop there may be one, at that very time
(`Timetable.late`).

A timetable is read off a run from its start to its end, so what is proved here is how it is
prolonged by one pass (`Timetable.pass`) or by one deed (`Timetable.deed`).
-/

namespace LabLease.Watch

variable {σ : Type} [LeaseStore σ]

/-- What the owner of a watch does while the watch runs. What only reads the ledger is left out. -/
inductive Deed
  /-- Set the clock, forwards or backwards. -/
  | setClock (t : Instant)
  /-- Work with the ledger. -/
  | act (a : Ledger.Action)
  /-- Let time pass. -/
  | wait (millis : Nat)
  /-- Begin to shut the watch down: tell it to stop. -/
  | tell
  /-- Wait until the watch, which was told to, has stopped: the end of shutting it down. -/
  | shutdown
  /-- Drop the handle of the watch, perhaps in the middle of shutting it down. -/
  | drop
deriving DecidableEq, Repr

namespace Deed

/-- The time that a deed takes. -/
def millis : Deed → Nat
  | .wait ms => ms
  | .setClock _ | .act _ | .tell | .shutdown | .drop => 0

/-- The deeds by which an owner stops its watch. -/
def Stops : Deed → Prop
  | .tell | .shutdown | .drop => True
  | .setClock _ | .act _ | .wait _ => False

/-- The deeds that neither take time nor concern the watch. -/
def AtOnce : Deed → Prop
  | .setClock _ | .act _ => True
  | .wait _ | .tell | .shutdown | .drop => False

theorem AtOnce.millis_eq {d : Deed} (h : d.AtOnce) : d.millis = 0 := by
  cases d <;> first | rfl | cases h

theorem AtOnce.not_stops {d : Deed} (h : d.AtOnce) : ¬ d.Stops := by
  cases d <;> simp_all [AtOnce, Stops]

end Deed

/-- The owner has begun to stop the watch. -/
def Stopped (ds : List Deed) : Prop := ∃ d ∈ ds, d.Stops

/-- The watch has come to its end: it was shut down, or its handle was dropped without that it was
told to stop. -/
def Ended (ds : List Deed) : Prop := .shutdown ∈ ds ∨ .drop ∈ ds ∧ .tell ∉ ds

section
variable {ds : List Deed} {d : Deed}

@[simp] theorem stopped_concat : Stopped (ds ++ [d]) ↔ Stopped ds ∨ d.Stops := by
  simp [Stopped, or_and_right, exists_or]

theorem Ended.stopped (h : Ended ds) : Stopped ds := by
  rcases h with h | ⟨h, -⟩ <;> exact ⟨_, h, trivial⟩

/-- Another deed does not end the watch. -/
theorem ended_concat (h : ¬ d.Stops) : Ended (ds ++ [d]) ↔ Ended ds := by
  cases d <;> simp_all [Ended, Deed.Stops]

end

/-- What a watch and its owner have in common. -/
structure Bench (σ : Type) where
  /-- The clock. -/
  clock : Instant
  /-- The ledger. -/
  ledger : Ledger σ

namespace Bench

/-- After a pass of the watch, at what the clock reads. -/
def swept (b : Bench σ) : Bench σ := { b with ledger := (b.ledger.sweep b.clock).2 }

/-- After a deed of the owner. -/
def after (b : Bench σ) : Deed → Bench σ
  | .setClock t => { b with clock := t }
  | .act a => { b with ledger := b.ledger.after a }
  | .wait _ | .tell | .shutdown | .drop => b

end Bench

/-! ## Deeds and their times -/

/-- The time that deeds take together. -/
def waited : List Deed → Nat
  | [] => 0
  | d :: ds => d.millis + waited ds

/-- Deeds one after the other from a time on, each with the time at which it is done. -/
def timed (t : Nat) : List Deed → List (Nat × Deed)
  | [] => []
  | d :: ds => (t + d.millis, d) :: timed (t + d.millis) ds

@[simp] theorem waited_concat (ds : List Deed) (d : Deed) :
    waited (ds ++ [d]) = waited ds + d.millis := by
  induction ds with
  | nil => simp [waited]
  | cons e ds ih => simp [waited, ih, Nat.add_assoc]

/-- The last deed is done when all the time is over. -/
theorem timed_concat (t : Nat) (ds : List Deed) (d : Deed) :
    timed t (ds ++ [d]) = timed t ds ++ [(t + waited (ds ++ [d]), d)] := by
  induction ds generalizing t with
  | nil => simp [timed, waited]
  | cons e ds ih => simp [timed, waited, ih, Nat.add_assoc]

@[simp] theorem map_snd_timed (t : Nat) (ds : List Deed) : (timed t ds).map (·.2) = ds := by
  induction ds generalizing t with
  | nil => rfl
  | cons d ds ih => simp [timed, ih]

/-! ## Sequences of passes and deeds -/

/-- A pass of the watch, or a deed of its owner, at a time. -/
inductive Item
  /-- A pass. -/
  | pass (time : Nat)
  /-- A deed. -/
  | deed (time : Nat) (d : Deed)
deriving DecidableEq, Repr

namespace Item

/-- When it happens. -/
def time : Item → Nat
  | .pass t | .deed t _ => t

/-- The time of a pass. -/
def pass? : Item → Option Nat
  | .pass t => some t
  | .deed .. => none

/-- A deed and its time. -/
def deed? : Item → Option (Nat × Deed)
  | .pass _ => none
  | .deed t d => some (t, d)

end Item

/-- The times of the passes. -/
def passTimes (items : List Item) : List Nat := items.filterMap Item.pass?

/-- The deeds. -/
def deedsOf (items : List Item) : List Deed := (items.filterMap Item.deed?).map (·.2)

/-- What becomes of clock and ledger. -/
def played (b : Bench σ) : List Item → Bench σ
  | [] => b
  | .pass _ :: items => played b.swept items
  | .deed _ d :: items => played (b.after d) items

/-- What the owner sees: the ledger after each deed. -/
def observed (b : Bench σ) : List Item → List (Deed × Ledger σ)
  | [] => []
  | .pass _ :: items => observed b.swept items
  | .deed _ d :: items => (d, (b.after d).ledger) :: observed (b.after d) items

section
variable (b : Bench σ) (items : List Item) (t : Nat) (d : Deed)

@[simp] theorem passTimes_pass : passTimes (items ++ [.pass t]) = passTimes items ++ [t] := by
  simp [passTimes, Item.pass?]

@[simp] theorem passTimes_deed : passTimes (items ++ [.deed t d]) = passTimes items := by
  simp [passTimes, Item.pass?]

variable {items t d} in
theorem mem_deedsOf (h : .deed t d ∈ items) : d ∈ deedsOf items :=
  List.mem_map.2 ⟨(t, d), List.mem_filterMap.2 ⟨_, h, rfl⟩, rfl⟩

variable {items t} in
theorem mem_passTimes : t ∈ passTimes items ↔ .pass t ∈ items := by
  constructor
  · intro h
    obtain ⟨i, hi, hit⟩ := List.mem_filterMap.1 h
    cases i with
    | pass t' => cases hit; exact hi
    | deed t' d => cases hit
  · exact fun h => List.mem_filterMap.2 ⟨_, h, rfl⟩

@[simp] theorem played_pass : played b (items ++ [.pass t]) = (played b items).swept := by
  induction items generalizing b with
  | nil => rfl
  | cons i items ih => cases i <;> exact ih _

@[simp] theorem played_deed : played b (items ++ [.deed t d]) = (played b items).after d := by
  induction items generalizing b with
  | nil => rfl
  | cons i items ih => cases i <;> exact ih _

@[simp] theorem observed_pass : observed b (items ++ [.pass t]) = observed b items := by
  induction items generalizing b with
  | nil => rfl
  | cons i items ih => cases i <;> simp [observed, ih]

@[simp] theorem observed_deed :
    observed b (items ++ [.deed t d]) =
      observed b items ++ [(d, ((played b items).after d).ledger)] := by
  induction items generalizing b with
  | nil => rfl
  | cons i items ih => cases i <;> simp [observed, played, ih]

end

/-! ## Timetables -/

/-- A sequence of passes and deeds that keeps to the times. -/
structure Timetable (period : Nat) (ds : List Deed) (items : List Item) : Prop where
  /-- It follows the time. -/
  ordered : items.Pairwise (·.time ≤ ·.time)
  /-- The deeds are those of the owner, when they are done. -/
  deeds : items.filterMap Item.deed? = timed 0 ds
  /-- The passes are at 0, at the period, at twice the period, and so on. -/
  passes : passTimes items = (List.range (passTimes items).length).map (· * period)
  /-- No pass is missing before a deed, unless the owner has begun to stop the watch. -/
  complete {before after : List Item} {t : Nat} {d : Deed}
    (h : items = before ++ .deed t d :: after) (hs : ¬ Stopped (deedsOf before)) {k : Nat}
    (hk : k * period < t) : .pass (k * period) ∈ before
  /-- Behind a deed by which the owner stops the watch there is at most one pass, and it is at the
  time of that deed. -/
  late {before after : List Item} {t : Nat} {d : Deed}
    (h : items = before ++ .deed t d :: after) (hd : d.Stops) :
    passTimes after = [] ∨ passTimes after = [t]
  /-- Once the watch has come to its end there is no pass. -/
  final {before after : List Item} {t : Nat} (h : items = before ++ .pass t :: after) :
    ¬ Ended (deedsOf before)

namespace Timetable

variable {period : Nat} {ds : List Deed} {items : List Item}

/-- Before anything happens. -/
theorem nil : Timetable period [] [] where
  ordered := .nil
  deeds := rfl
  passes := rfl
  complete h := by simp at h
  late h := by simp at h
  final h := by simp at h

theorem deedsOf_eq (h : Timetable period ds items) : deedsOf items = ds := by
  rw [deedsOf, h.deeds, map_snd_timed]

/-- The passes are at the multiples of the period, up to as many as there are. -/
theorem pass_mem_iff (h : Timetable period ds items) {t : Nat} :
    .pass t ∈ items ↔ ∃ k < (passTimes items).length, k * period = t := by
  rw [← mem_passTimes, h.passes]
  simp

/-- The next pass is due, and if the owner has begun to stop the watch, it did so just now. -/
theorem pass (h : Timetable period ds items) (hp : 0 < period) (he : ¬ Ended ds)
    (hpast : ∀ i ∈ items, i.time ≤ (passTimes items).length * period)
    (hnow : ∀ t d, .deed t d ∈ items → d.Stops → t = (passTimes items).length * period) :
    Timetable period ds (items ++ [.pass ((passTimes items).length * period)]) where
  ordered := by
    refine List.pairwise_append.2 ⟨h.ordered, List.pairwise_singleton _ _, fun i hi j hj => ?_⟩
    cases List.mem_singleton.1 hj
    exact hpast i hi
  deeds := by
    rw [List.filterMap_append, h.deeds]
    exact List.append_nil _
  passes := by
    rw [passTimes_pass, List.length_append, List.length_singleton, List.range_succ,
      List.map_append, ← h.passes, List.map_singleton]
  complete heq hsb _ hk := by
    rcases Ledger.concat_eq_append_cons heq with ⟨-, hi, -⟩ | ⟨after, -, heq⟩
    · cases hi
    · exact h.complete heq hsb hk
  late {before _ t d} heq hd := by
    rcases Ledger.concat_eq_append_cons heq with ⟨-, hi, -⟩ | ⟨after, rfl, hitems⟩
    · cases hi
    have mem : ∀ i ∈ .deed t d :: after, i ∈ items := fun i hi =>
      hitems ▸ List.mem_append_right _ hi
    have ht : t = (passTimes items).length * period := hnow t d (mem _ List.mem_cons_self) hd
    rcases h.late hitems hd with hnone | hone
    · exact .inr (by rw [passTimes_pass, hnone, ← ht]; rfl)
    · -- the pass of this time would have been made before
      have made : .pass t ∈ after := mem_passTimes.1 (hone ▸ List.mem_cons_self)
      obtain ⟨k, hk, hkt⟩ := h.pass_mem_iff.1 (mem _ (List.mem_cons_of_mem _ made))
      exact absurd (Nat.eq_of_mul_eq_mul_right hp (hkt.trans ht)) (Nat.ne_of_lt hk)
  final heq := by
    rcases Ledger.concat_eq_append_cons heq with ⟨rfl, -, -⟩ | ⟨after, -, heq⟩
    · rwa [h.deedsOf_eq]
    · exact h.final heq

/-- The owner does something, for which no earlier pass is missing. -/
theorem deed (h : Timetable period ds items) {d : Deed}
    (hpast : ∀ i ∈ items, i.time ≤ waited ds + d.millis)
    (hdue : Stopped ds ∨ waited ds + d.millis ≤ (passTimes items).length * period) :
    Timetable period (ds ++ [d]) (items ++ [.deed (waited ds + d.millis) d]) where
  ordered := by
    refine List.pairwise_append.2 ⟨h.ordered, List.pairwise_singleton _ _, fun i hi j hj => ?_⟩
    cases List.mem_singleton.1 hj
    exact hpast i hi
  deeds := by
    rw [timed_concat, ← h.deeds, List.filterMap_append, waited_concat, Nat.zero_add]
    rfl
  passes := by simpa using h.passes
  complete {before after t e} heq hsb k hk := by
    rcases Ledger.concat_eq_append_cons heq with ⟨rfl, hi, -⟩ | ⟨after, -, heq⟩
    · cases hi
      rw [h.deedsOf_eq] at hsb
      refine h.pass_mem_iff.2 ⟨k, ?_, rfl⟩
      exact Nat.lt_of_mul_lt_mul_right (Nat.lt_of_lt_of_le hk (hdue.resolve_left hsb))
    · exact h.complete heq hsb hk
  late heq hd := by
    rcases Ledger.concat_eq_append_cons heq with ⟨-, -, rfl⟩ | ⟨after, rfl, hitems⟩
    · exact .inl rfl
    · rw [passTimes_deed]
      exact h.late hitems hd
  final heq := by
    rcases Ledger.concat_eq_append_cons heq with ⟨-, hi, -⟩ | ⟨after, -, heq⟩
    · cases hi
    · exact h.final heq

end Timetable

end LabLease.Watch
