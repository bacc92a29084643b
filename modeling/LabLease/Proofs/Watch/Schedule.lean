import LabLease.Proofs.Watch.Task

/-!
# The schedule of a watch

The watch as it is computed (`Watch.pass`) leaves a sweep that falls on the end of a wait for the
next one, and never sweeps when it is told to stop. That is one way for its task to run beside its
owner (`runs_log`), so what it computes for a sequence of deeds is what a timetable says. Main
statement: `start_meets`.
-/

namespace LabLease.Watch

variable {σ : Type} [LeaseStore σ]

/-! ## The watch as it is computed -/

/-- A watch with the clock and the ledger it watches over, after a deed of its owner. -/
def step (w : Watch) (b : Bench σ) : Deed → Watch × Bench σ
  | .setClock t => (w, b.after (.setClock t))
  | .act a => (w, b.after (.act a))
  | .wait millis =>
    ((w.pass millis b.clock b.ledger).1, { b with ledger := (w.pass millis b.clock b.ledger).2 })
  | .tell | .shutdown | .drop => (w.stop, b)

@[simp] theorem step_period (w : Watch) (b : Bench σ) (d : Deed) :
    (w.step b d).1.period = w.period := by
  cases d <;> rfl

/-- The ledger after each of the deeds of the owner. -/
def log (w : Watch) (b : Bench σ) : List Deed → List (Deed × Ledger σ)
  | [] => []
  | d :: ds => (d, (w.step b d).2.ledger) :: log (w.step b d).1 (w.step b d).2 ds

/-- It has all deeds. -/
theorem map_fst_log (w : Watch) (b : Bench σ) (ds : List Deed) :
    (w.log b ds).map (·.1) = ds := by
  induction ds generalizing w b with
  | nil => rfl
  | cons d ds ih => simp [log, ih]

/-- The handle after a deed, if the deed can be done with it. -/
def Handle.after : Handle → Deed → Option Handle
  | handle, .setClock _ | handle, .act _ | handle, .wait _ => some handle
  | .kept, .tell => some .told
  | .told, .shutdown => some .gone
  | .kept, .drop | .told, .drop => some .gone
  | _, _ => none

/-- Deeds can be done one after the other with a handle. -/
def Handle.Allows : Handle → List Deed → Prop
  | _, [] => True
  | handle, d :: ds => ∃ handle', handle.after d = some handle' ∧ handle'.Allows ds

/-- The state of task and handle that a watch stands for, after all sweeps of the past were made and
the signal to stop, if it was sent, was followed. -/
def Stands (w : Watch) : Task → Handle → Prop
  | .fresh, handle => w.running = true ∧ handle = .kept ∧ w.elapsed = 0
  | .waiting next, handle =>
    w.running = true ∧ handle = .kept ∧ next = sweepsBefore w.period w.elapsed * w.period
  | .ended, _ => w.running = false

section
variable {period : Nat} {s₀ : Scene σ} {done : List (Deed × Ledger σ)} {b : Bench σ}
variable {handle : Handle}

/-- Time goes on to the next timer, if it is not there already. -/
theorem runs_firstTimer {since millis time timer : Nat} {task : Task}
    (h : Runs period s₀ done ⟨time, b, task, .asleep since millis, handle⟩) (hi : task.Idle handle)
    (htimer : task.firstTimer (since + millis) = timer) (ht : time ≤ timer) :
    Runs period s₀ done ⟨timer, b, task, .asleep since millis, handle⟩ := by
  subst htimer
  rcases Nat.eq_or_lt_of_le ht with heq | hlt
  · rwa [← heq]
  · exact h.silent (.advance hi hlt)

/-- A task that waits for its ticker makes the sweeps before the end of a wait. -/
theorem runs_sweepTimes (hp : 0 < period) {since millis k n time : Nat}
    (hk : k + n = sweepsBefore period (since + millis)) (ht : time ≤ since + millis)
    (hnext : time ≤ k * period)
    (h : Runs period s₀ done ⟨time, b, .waiting (k * period), .asleep since millis, .kept⟩) :
    Runs period s₀ done ⟨since + millis, ⟨b.clock, sweepTimes b.clock n b.ledger⟩,
      .waiting ((k + n) * period), .asleep since millis, .kept⟩ := by
  induction n generalizing k time b with
  | zero =>
    -- the next tick is not before the end of the wait
    have hle : since + millis ≤ k * period := by
      refine Nat.le_of_not_lt fun hlt => ?_
      have := (lt_sweepsBefore_iff hp).2 hlt
      omega
    exact runs_firstTimer h rfl (Nat.min_eq_right hle) ht
  | succ n ih =>
    have hlt : k * period < since + millis := (lt_sweepsBefore_iff hp).1 (by omega)
    have at_tick := runs_firstTimer h rfl (Nat.min_eq_left (Nat.le_of_lt hlt)) hnext
    have swept := at_tick.silent (.tick (Nat.le_refl _) (.inl (Nat.succ_mul k period)))
    have := ih (by omega) (Nat.le_of_lt hlt) (Nat.mul_le_mul_right _ (Nat.le_succ k)) swept
    rwa [show k + (n + 1) = k + 1 + n by omega]

end

section
variable {s₀ : Scene σ} {seen : List (Deed × Ledger σ)} {w : Watch} {b : Bench σ} {task : Task}
variable {handle : Handle}

/-- The next sweep is not in the past. -/
theorem le_sweepsBefore_mul (w : Watch) (time : Nat) :
    time ≤ sweepsBefore w.period time * w.period :=
  Nat.le_of_not_lt fun h => Nat.lt_irrefl _ ((lt_sweepsBefore_iff w.period_pos).2 h)

/-- Later times have more sweeps before them. -/
theorem sweepsBefore_le_add (period time millis : Nat) :
    sweepsBefore period time ≤ sweepsBefore period (time + millis) :=
  Nat.div_le_div_right (by omega)

/-- A wait beside a watch that runs. -/
theorem runs_wait_running (millis : Nat) (hr : w.running = true) (hs : w.Stands task handle)
    (h : Runs w.period s₀ seen ⟨w.elapsed, b, task, .free, handle⟩) :
    Runs w.period s₀
      (seen ++ [(.wait millis, sweepTimes b.clock (w.sweepsDuring millis) b.ledger)])
      ⟨w.elapsed + millis, ⟨b.clock, sweepTimes b.clock (w.sweepsDuring millis) b.ledger⟩,
        .waiting (sweepsBefore w.period (w.elapsed + millis) * w.period), .free, .kept⟩ := by
  have asleep := h.silent (.sleep millis)
  have waits : Runs w.period s₀ seen ⟨w.elapsed, b,
      .waiting (sweepsBefore w.period w.elapsed * w.period), .asleep w.elapsed millis, .kept⟩ := by
    cases task with
    | fresh =>
      obtain ⟨-, rfl, start⟩ := hs
      have none_before : sweepsBefore w.period 0 = 0 :=
        Nat.div_eq_of_lt (by have := w.period_pos; omega)
      rw [start] at asleep ⊢
      rw [none_before, Nat.zero_mul]
      exact asleep.silent .begin
    | waiting next =>
      obtain ⟨-, rfl, hnext⟩ := hs
      rw [← hnext]
      exact asleep
    | ended => exact absurd hr (by simp [show w.running = false from hs])
  have sweeps : sweepsBefore w.period w.elapsed + w.sweepsDuring millis =
      sweepsBefore w.period (w.elapsed + millis) := by
    rw [sweepsDuring, if_pos hr]
    exact Nat.add_sub_of_le (sweepsBefore_le_add _ _ _)
  have reached := runs_sweepTimes w.period_pos sweeps (Nat.le_add_right _ _)
    (w.le_sweepsBefore_mul _) waits
  rw [sweeps] at reached
  exact reached.done (.wake (Nat.le_refl _))

/-- A wait beside a watch that has stopped. -/
theorem runs_wait_ended (millis : Nat)
    (h : Runs w.period s₀ seen ⟨w.elapsed, b, .ended, .free, handle⟩) :
    Runs w.period s₀ (seen ++ [(.wait millis, b.ledger)])
      ⟨w.elapsed + millis, b, .ended, .free, handle⟩ := by
  have asleep := h.silent (.sleep millis)
  have reached := runs_firstTimer asleep trivial rfl (Nat.le_add_right _ _)
  exact reached.done (.wake (Nat.le_refl _))

/-- A wait as it is computed. -/
theorem runs_wait (millis : Nat) (hs : w.Stands task handle)
    (h : Runs w.period s₀ seen ⟨w.elapsed, b, task, .free, handle⟩) :
    ∃ task', (w.pass millis b.clock b.ledger).1.Stands task' handle ∧
      Runs w.period s₀ (seen ++ [(.wait millis, (w.pass millis b.clock b.ledger).2)])
        ⟨w.elapsed + millis, ⟨b.clock, (w.pass millis b.clock b.ledger).2⟩, task', .free,
          handle⟩ := by
  cases task with
  | fresh | waiting =>
    obtain ⟨hr, rfl, -⟩ := id hs
    exact ⟨.waiting _, ⟨hr, rfl, rfl⟩, runs_wait_running millis hr hs h⟩
  | ended =>
    have hr : w.running = false := hs
    have none_made : w.sweepsDuring millis = 0 := by simp [sweepsDuring, hr]
    refine ⟨.ended, hr, ?_⟩
    simpa only [pass, none_made, sweepTimes] using runs_wait_ended millis h

/-- Telling the task to stop, which it does at once. -/
theorem runs_tell (h : Runs w.period s₀ seen ⟨w.elapsed, b, task, .free, .kept⟩) :
    Runs w.period s₀ (seen ++ [(.tell, b.ledger)]) ⟨w.elapsed, b, .ended, .free, .told⟩ := by
  have told := h.done .tell
  cases task with
  | fresh => exact (told.silent .begin).silent (.heed nofun)
  | waiting next => exact told.silent (.heed nofun)
  | ended => exact told

/-- A watch that was told to stop has stopped. -/
theorem Stands.eq_ended (hs : w.Stands task handle) (hk : handle ≠ .kept) : task = .ended := by
  cases task with
  | fresh | waiting => exact absurd hs.2.1 hk
  | ended => rfl

/-- A deed of the owner as it is computed is one that a run can end with. -/
theorem runs_step {d : Deed} {handle' : Handle} (hs : w.Stands task handle)
    (h : Runs w.period s₀ seen ⟨w.elapsed, b, task, .free, handle⟩)
    (hd : handle.after d = some handle') :
    ∃ task', (w.step b d).1.Stands task' handle' ∧
      Runs w.period s₀ (seen ++ [(d, (w.step b d).2.ledger)])
        ⟨(w.step b d).1.elapsed, (w.step b d).2, task', .free, handle'⟩ := by
  cases d with
  | setClock t =>
    cases hd
    exact ⟨task, hs, h.done (.atOnce (d := .setClock t) trivial)⟩
  | act a =>
    cases hd
    exact ⟨task, hs, h.done (.atOnce (d := .act a) trivial)⟩
  | wait millis =>
    cases hd
    exact runs_wait millis hs h
  | tell =>
    cases handle with
    | kept =>
      cases hd
      exact ⟨.ended, rfl, runs_tell h⟩
    | told | gone => cases hd
  | shutdown =>
    cases handle with
    | told =>
      cases hd
      obtain rfl := hs.eq_ended nofun
      exact ⟨.ended, rfl, (h.silent .leave).done .left⟩
    | kept | gone => cases hd
  | drop =>
    cases handle with
    | kept =>
      cases hd
      exact ⟨.ended, rfl, h.done (.drop nofun)⟩
    | told =>
      cases hd
      obtain rfl := hs.eq_ended nofun
      exact ⟨.ended, rfl, h.done (.drop nofun)⟩
    | gone => cases hd

/-- So are all of them, one after the other. -/
theorem runs_log {ds : List Deed} (hs : w.Stands task handle)
    (h : Runs w.period s₀ seen ⟨w.elapsed, b, task, .free, handle⟩) (hds : handle.Allows ds) :
    ∃ s, Runs w.period s₀ (seen ++ w.log b ds) s := by
  induction ds generalizing w b task handle seen with
  | nil => exact ⟨_, by simpa [log] using h⟩
  | cons d ds ih =>
    obtain ⟨handle', hd, hds⟩ := hds
    obtain ⟨task', hs', h'⟩ := runs_step hs h hd
    rw [← step_period w b d] at h'
    obtain ⟨s, hrest⟩ := ih hs' h' hds
    refine ⟨s, ?_⟩
    rwa [log, List.append_cons, ← step_period w b d]

end

/-! ## What a watch does -/

/-- What a watch with a period of some milliseconds should do beside its owner. -/
structure ScheduleSpec (millis : Nat) (b : Bench σ) : Prop where
  /-- A period without any time is raised to a millisecond. -/
  period : (start (.ofMillis millis)).period = max millis 1
  /-- Whatever the owner does, and in whichever order things happen, it sees the ledgers of a
  timetable. -/
  scheduled {log : List (Deed × Ledger σ)} {s : Scene σ}
    (h : Runs (start (.ofMillis millis)).period (.spawned b) log s) :
    ∃ items, Timetable (max millis 1) (log.map (·.1)) items ∧ observed b items = log
  /-- The owner is not held up for ever, neither by a wait nor by a shutdown. -/
  returns {log : List (Deed × Ledger σ)} {s : Scene σ}
    (h : Runs (start (.ofMillis millis)).period (.spawned b) log s) :
    Returns (start (.ofMillis millis)).period s
  /-- Once the watch was shut down, or its handle dropped before it was told to stop, clock and
  ledger are left to the owner. -/
  final {log log' : List (Deed × Ledger σ)} {s s' : Scene σ}
    (h : Runs (start (.ofMillis millis)).period (.spawned b) log s)
    (he : Ended (log.map (·.1))) (h' : Runs (start (.ofMillis millis)).period s log' s') :
    s'.bench = (log'.map (·.1)).foldl Bench.after s.bench
  /-- The owner can do anything for which it has the handle, and what is computed is what it may see
  then. -/
  computed {ds : List Deed} (hds : Handle.kept.Allows ds) :
    ((start (.ofMillis millis)).log b ds).map (·.1) = ds ∧
    ∃ s, Runs (start (.ofMillis millis)).period (.spawned b) ((start (.ofMillis millis)).log b ds) s

/-- The milliseconds of a watch are those that were asked for, or one. -/
theorem period_start (millis : Nat) : (start (.ofMillis millis)).period = max millis 1 := by
  have whole (n : Nat) : (Span.ofMillis n).millis = n := Nat.mul_div_cancel n (by decide)
  simp only [period, start]
  split
  · next h =>
    have pos : 1 ≤ millis := Nat.le_of_mul_le_mul_right h (by decide)
    rw [whole, Nat.max_eq_left pos]
  · next h =>
    have none_given : millis < 1 := Nat.lt_of_not_le fun hle => h (Nat.mul_le_mul_right _ hle)
    rw [whole, Nat.max_eq_right (Nat.le_of_lt none_given)]

/-- A watch beside its owner makes its passes at 0, at the period, at twice the period, and so on,
each at what the clock then reads, until it is shut down or its handle is dropped before it was told
to stop. Once it was told there is at most one more pass, at that very time. Reference:
`ExpirySweeper.spawn`, `SweeperHandle.shutdown` and `SweeperHandle.drop`, §4.4. -/
theorem start_meets (millis : Nat) (b : Bench σ) : ScheduleSpec millis b where
  period := period_start millis
  scheduled h := by
    obtain ⟨items, ht⟩ := h.tracks (period_pos _)
    exact ⟨items, period_start millis ▸ ht.timetable, ht.observed⟩
  returns h := by
    obtain ⟨items, ht⟩ := h.tracks (period_pos _)
    exact ht.returns (period_pos _)
  final h he h' := by
    obtain ⟨items, ht⟩ := h.tracks (period_pos _)
    exact (h'.of_ended (ht.ended he)).2
  computed hds := by
    have stands : (start (.ofMillis millis)).Stands .fresh .kept := ⟨rfl, rfl, rfl⟩
    exact ⟨map_fst_log _ b _, runs_log stands .nil hds⟩

/-- Dropping the handle in the middle of a shutdown does not always end the watch at once: a task
that had not run by then may still make the pass that is due. -/
theorem runs_pass_after_drop (period : Nat) (b : Bench σ) :
    ∃ s s', Runs period (.spawned b) [(.tell, b.ledger), (.drop, b.ledger)] s ∧
      Runs period s [(.wait 1, b.swept.ledger)] s' := by
  have spawned : Runs period (.spawned b) [] ⟨0, b, .fresh, .free, .kept⟩ := .nil
  have dropped := (spawned.done .tell).done (.drop nofun)
  have orphan : Runs period _ [] ⟨0, b, .fresh, .free, .gone⟩ := .nil
  have asleep := orphan.silent (.sleep 1)
  have swept := (asleep.silent .begin).silent (.tick (Nat.le_refl _) (.inl rfl))
  have ended := swept.silent (.heed nofun)
  have awake := (ended.silent (.advance trivial Nat.one_pos)).done (.wake (Nat.le_refl _))
  exact ⟨_, _, dropped, awake⟩

/-- A ledger with one lease, and a clock that has come to its deadline. -/
def overdue : Bench MemoryStore where
  clock := 60000
  ledger := (Ledger.blank ⟨.ofSecs 60, .ofSecs 60⟩ .empty).after
    (.claim ⟨"e1", .ofSecs 60, none, ""⟩ 0 "a")

/-- So the lease, which is active when the handle has been dropped, can be expired after the next
wait. -/
theorem pass_after_drop :
    overdue.ledger.leases.map (·.status) = [.active] ∧
    overdue.swept.ledger.leases.map (·.status) = [.expired] ∧
    ∃ s s' : Scene MemoryStore,
      Runs (start (.ofMillis 5000)).period (.spawned overdue)
        [(.tell, overdue.ledger), (.drop, overdue.ledger)] s ∧
      Runs (start (.ofMillis 5000)).period s [(.wait 1, overdue.swept.ledger)] s' :=
  ⟨rfl, rfl, runs_pass_after_drop _ overdue⟩

end LabLease.Watch
