import LabLease.Proofs.Watch.Timetable

/-!
# The watch as a task

A watch is a task beside its owner: it waits for its ticker and for the signal to stop, and sweeps
at every tick. A scene holds the two with the clock and the ledger they share, and the handle by
which the one has the other. `Watch.Move` says what can happen in a scene: the owner does something,
the task runs on, or, when neither has anything to do and the owner waits, time goes on to the next
of the two timers. Which of several possible moves is made is left open, so that a tick, the signal
and the end of a wait that fall on one time come in any order.

The handle holds the sender of the signal until it is sent. A handle that is dropped with the sender
in it ends the task; one that is dropped without it, in the middle of a shutdown, leaves the task to
follow the signal by itself (`Task.dropped`).

Every run keeps a timetable (`Runs.tracks`): what the owner sees is what it would see if the passes
were made by the timetable. An ended task makes none (`Runs.of_ended`). And whichever moves are
made, a wait and a shutdown do not hold the owner up for ever (`Tracks.returns`).
-/

namespace LabLease.Watch

variable {σ : Type} [LeaseStore σ]

/-! ## Scenes and moves -/

/-- The state of the task. -/
inductive Task
  /-- It has not run yet. -/
  | fresh
  /-- It waits for its ticker, which is due next at a time, and for the signal to stop. -/
  | waiting (next : Nat)
  /-- It does nothing any more. -/
  | ended
deriving DecidableEq, Repr

/-- The state of the owner. -/
inductive Owner
  /-- It can do something. -/
  | free
  /-- It waits for some milliseconds since a time. -/
  | asleep (since millis : Nat)
  /-- It has told the task to stop, and waits for its end. -/
  | leaving
deriving DecidableEq, Repr

/-- The state of the handle. Reference: `SweeperHandle`. -/
inductive Handle
  /-- The owner has it, and the sender of the signal is in it. -/
  | kept
  /-- The owner has it, and the signal was sent. -/
  | told
  /-- It is gone. -/
  | gone
deriving DecidableEq, Repr

/-- A task and its owner. -/
structure Scene (σ : Type) where
  /-- The milliseconds since the start. -/
  time : Nat
  /-- The clock and the ledger. -/
  bench : Bench σ
  /-- The task. -/
  task : Task
  /-- Its owner. -/
  owner : Owner
  /-- The handle of the task. -/
  handle : Handle

/-- The scene in which a watch starts. -/
def Scene.spawned (b : Bench σ) : Scene σ := ⟨0, b, .fresh, .free, .kept⟩

/-- What becomes of a task when its handle is dropped: it ends, unless the signal was sent, which it
will follow. Reference: `SweeperHandle.drop`. -/
def Task.dropped (task : Task) : Handle → Task
  | .kept => .ended
  | .told | .gone => task

/-- The task has nothing to do before its next timer. -/
def Task.Idle : Task → Handle → Prop
  | .fresh, _ => False
  | .waiting _, handle => handle = .kept
  | .ended, _ => True

/-- The first of two timers, that of the task and another one. -/
def Task.firstTimer (t : Task) (deadline : Nat) : Nat :=
  match t with
  | .waiting next => min next deadline
  | .fresh | .ended => deadline

theorem Task.firstTimer_le (t : Task) (deadline : Nat) : t.firstTimer deadline ≤ deadline := by
  cases t with
  | waiting next => exact Nat.min_le_right _ _
  | fresh | ended => exact Nat.le_refl _

/-- What can happen in a scene, and the deed of the owner that is done with it. Reference: the loop
of `ExpirySweeper.spawn`, `SweeperHandle.shutdown` and `SweeperHandle.drop`. -/
inductive Move (period : Nat) : Scene σ → Option Deed → Scene σ → Prop
  /-- The owner sets the clock or works with the ledger. -/
  | atOnce {time : Nat} {b : Bench σ} {task : Task} {handle : Handle} {d : Deed} (h : d.AtOnce) :
      Move period ⟨time, b, task, .free, handle⟩ (some d) ⟨time, b.after d, task, .free, handle⟩
  /-- The owner begins to wait. -/
  | sleep {time : Nat} {b : Bench σ} {task : Task} {handle : Handle} (millis : Nat) :
      Move period ⟨time, b, task, .free, handle⟩ none
        ⟨time, b, task, .asleep time millis, handle⟩
  /-- The wait is over. -/
  | wake {time : Nat} {b : Bench σ} {task : Task} {since millis : Nat} {handle : Handle}
      (h : since + millis ≤ time) :
      Move period ⟨time, b, task, .asleep since millis, handle⟩ (some (.wait millis))
        ⟨time, b, task, .free, handle⟩
  /-- The owner begins a shutdown, and sends the signal to stop. -/
  | tell {time : Nat} {b : Bench σ} {task : Task} :
      Move period ⟨time, b, task, .free, .kept⟩ (some .tell) ⟨time, b, task, .free, .told⟩
  /-- In a shutdown, the owner begins to wait for the task. If it gives that up later, nothing
  remains of it, so it is as if it had not begun. -/
  | leave {time : Nat} {b : Bench σ} {task : Task} :
      Move period ⟨time, b, task, .free, .told⟩ none ⟨time, b, task, .leaving, .told⟩
  /-- The task has ended, and the shutdown with it. -/
  | left {time : Nat} {b : Bench σ} {handle : Handle} :
      Move period ⟨time, b, .ended, .leaving, handle⟩ (some .shutdown)
        ⟨time, b, .ended, .free, .gone⟩
  /-- The owner drops the handle, be it in the middle of a shutdown. -/
  | drop {time : Nat} {b : Bench σ} {task : Task} {handle : Handle} (h : handle ≠ .gone) :
      Move period ⟨time, b, task, .free, handle⟩ (some .drop)
        ⟨time, b, task.dropped handle, .free, .gone⟩
  /-- The task runs for the first time, and its ticker is due at once. -/
  | begin {time : Nat} {b : Bench σ} {owner : Owner} {handle : Handle} :
      Move period ⟨time, b, .fresh, owner, handle⟩ none ⟨time, b, .waiting time, owner, handle⟩
  /-- The ticker is due, and the task sweeps, even if the signal has come too. The next tick comes a
  period after the time for which this one was due or, if it was late, after it came. -/
  | tick {time : Nat} {b : Bench σ} {owner : Owner} {handle : Handle} {next next' : Nat}
      (h : next ≤ time) (hn : next' = next + period ∨ next' = time + period) :
      Move period ⟨time, b, .waiting next, owner, handle⟩ none
        ⟨time, b.swept, .waiting next', owner, handle⟩
  /-- The task follows the signal. -/
  | heed {time : Nat} {b : Bench σ} {owner : Owner} {handle : Handle} {next : Nat}
      (h : handle ≠ .kept) :
      Move period ⟨time, b, .waiting next, owner, handle⟩ none ⟨time, b, .ended, owner, handle⟩
  /-- There is nothing to do before the next timer. -/
  | advance {time : Nat} {b : Bench σ} {task : Task} {since millis : Nat} {handle : Handle}
      (hi : task.Idle handle) (h : time < task.firstTimer (since + millis)) :
      Move period ⟨time, b, task, .asleep since millis, handle⟩ none
        ⟨task.firstTimer (since + millis), b, task, .asleep since millis, handle⟩

/-- One scene leads to another, and the owner sees the ledger after each of its deeds. -/
inductive Runs (period : Nat) (s₀ : Scene σ) : List (Deed × Ledger σ) → Scene σ → Prop
  | nil : Runs period s₀ [] s₀
  | silent {log : List (Deed × Ledger σ)} {s s' : Scene σ} (h : Runs period s₀ log s)
      (hm : Move period s none s') : Runs period s₀ log s'
  | done {log : List (Deed × Ledger σ)} {s s' : Scene σ} {d : Deed} (h : Runs period s₀ log s)
      (hm : Move period s (some d) s') : Runs period s₀ (log ++ [(d, s'.bench.ledger)]) s'

/-! ## Runs keep a timetable -/

/-- Where an owner is in time who has waited `total` milliseconds. -/
def Owner.At (time total : Nat) : Owner → Prop
  | .free | .leaving => time = total
  | .asleep since millis => since = total ∧ since ≤ time ∧ time ≤ since + millis

/-- Where a task is that has made `passes` passes. -/
def Task.At (period passes : Nat) : Task → Prop
  | .fresh => passes = 0
  | .waiting next => next = passes * period
  | .ended => True

/-- How far the owner has come in stopping the watch, by its handle. -/
def Handle.At (ds : List Deed) : Handle → Prop
  | .kept => ¬ Stopped ds
  | .told => .tell ∈ ds
  | .gone => Stopped ds

theorem Handle.At.stopped {ds : List Deed} {handle : Handle} (h : handle.At ds)
    (hk : handle ≠ .kept) : Stopped ds := by
  cases handle with
  | kept => exact absurd rfl hk
  | told => exact ⟨_, h, trivial⟩
  | gone => exact h

/-- Other deeds leave the handle alone. -/
theorem Handle.At.concat {ds : List Deed} {handle : Handle} {d : Deed} (h : handle.At ds)
    (hd : ¬ d.Stops) : handle.At (ds ++ [d]) := by
  cases handle with
  | kept => exact fun hs => (stopped_concat.1 hs).elim h hd
  | told => exact List.mem_append_left _ h
  | gone => exact stopped_concat.2 (.inl h)

/-- A scene to which a run led, its log, and a timetable of the run. -/
structure Tracks (period : Nat) (b : Bench σ) (log : List (Deed × Ledger σ)) (items : List Item)
    (s : Scene σ) : Prop where
  timetable : Timetable period (log.map (·.1)) items
  observed : observed b items = log
  played : played b items = s.bench
  past : ∀ i ∈ items, i.time ≤ s.time
  owner : s.owner.At s.time (waited (log.map (·.1)))
  leaving : s.owner = .leaving → s.handle = .told
  handle : s.handle.At (log.map (·.1))
  task : s.task.At period (passTimes items).length
  /-- As long as the task has not ended, all passes of the past were made, -/
  due : s.task = .ended ∨ s.time ≤ (passTimes items).length * period
  /-- and if the owner has begun to stop the watch, no time has passed since. -/
  now : s.task = .ended ∨ ∀ t d, .deed t d ∈ items → d.Stops → t = s.time
  stopped : s.task = .ended → Stopped (log.map (·.1))
  ended : Ended (log.map (·.1)) → s.task = .ended

namespace Tracks

variable {period : Nat} {b : Bench σ} {log : List (Deed × Ledger σ)} {items : List Item}
variable {s s' : Scene σ} {d : Deed}

/-- A watch starts with nothing behind it. -/
theorem spawned (b : Bench σ) : Tracks period b [] [] (.spawned b) where
  timetable := .nil
  observed := rfl
  played := rfl
  past := List.forall_mem_nil _
  owner := rfl
  leaving h := nomatch h
  handle := fun ⟨_, hmem, _⟩ => nomatch hmem
  task := rfl
  due := .inr (Nat.zero_le _)
  now := .inr fun _ _ hmem => nomatch hmem
  stopped h := nomatch h
  ended h := by simp [Ended] at h

/-- A task that waits has made all passes before the next one, and that is not in the past. -/
theorem le_next {time next : Nat} {b' : Bench σ} {owner : Owner} {handle : Handle}
    (h : Tracks period b log items ⟨time, b', .waiting next, owner, handle⟩) :
    next = (passTimes items).length * period ∧ time ≤ next := by
  have hnext : next = (passTimes items).length * period := h.task
  exact ⟨hnext, hnext ▸ h.due.resolve_left nofun⟩

/-- The pass of a tick is put behind the timetable: the ticker is due now, and no pass before this
one is missing. -/
theorem tick {time next next' : Nat} {b' : Bench σ} {owner : Owner} {handle : Handle}
    (hp : 0 < period) (h : Tracks period b log items ⟨time, b', .waiting next, owner, handle⟩)
    (hdue : next ≤ time) (hn : next' = next + period ∨ next' = time + period) :
    Tracks period b log (items ++ [.pass time])
      ⟨time, b'.swept, .waiting next', owner, handle⟩ := by
  obtain ⟨hnext, hle⟩ := h.le_next
  obtain rfl : next = time := Nat.le_antisymm hdue hle
  have running : ¬ Ended (log.map (·.1)) := fun he => nomatch h.ended he
  have now := h.now.resolve_left nofun
  have made : (passTimes (items ++ [.pass next])).length * period = next + period := by
    rw [passTimes_pass, List.length_append, List.length_singleton, Nat.succ_mul, ← hnext]
  exact {
    timetable := by
      rw [hnext]
      exact h.timetable.pass hp running (hnext ▸ h.past) (hnext ▸ now)
    observed := by rw [observed_pass, h.observed]
    played := by rw [played_pass, h.played]
    past := by simpa [or_imp, forall_and, Item.time] using h.past
    owner := h.owner
    leaving := h.leaving
    handle := h.handle
    task := (hn.elim id id).trans made.symm
    due := .inr (made ▸ Nat.le_add_right _ _)
    now := .inr (by simpa using now)
    stopped := nofun
    ended := fun he => absurd he running }

/-- Time may go on to the next timer: for a task that waits only if the owner has not begun to stop
the watch. -/
theorem advance {time since millis : Nat} {b' : Bench σ} {task : Task} {handle : Handle}
    (h : Tracks period b log items ⟨time, b', task, .asleep since millis, handle⟩)
    (hi : task.Idle handle) (hlt : time < task.firstTimer (since + millis)) :
    Tracks period b log items
      ⟨task.firstTimer (since + millis), b', task, .asleep since millis, handle⟩ := by
  obtain ⟨hsince, hle, -⟩ : since = _ ∧ since ≤ time ∧ time ≤ since + millis := h.owner
  have due_now : (task = .ended ∨
        task.firstTimer (since + millis) ≤ (passTimes items).length * period) ∧
      (task = .ended ∨ ∀ t d, .deed t d ∈ items → d.Stops →
        t = task.firstTimer (since + millis)) := by
    cases task with
    | fresh => exact absurd hi id
    | ended => exact ⟨.inl rfl, .inl rfl⟩
    | waiting next =>
      obtain rfl : handle = .kept := hi
      have running : ¬ Stopped (log.map (·.1)) := h.handle
      refine ⟨.inr (h.le_next.1 ▸ Nat.min_le_left _ _), .inr fun t d hmem hd => ?_⟩
      rw [← h.timetable.deedsOf_eq] at running
      exact absurd ⟨d, mem_deedsOf hmem, hd⟩ running
  exact { h with
    past := fun i hi => Nat.le_trans (h.past i hi) (Nat.le_of_lt hlt)
    owner := ⟨hsince, Nat.le_trans hle (Nat.le_of_lt hlt), task.firstTimer_le _⟩
    due := due_now.1
    now := due_now.2 }

/-- What happens unseen keeps to the timetable: it is prolonged by the pass of a tick. -/
theorem silent (hp : 0 < period) (h : Tracks period b log items s) (hm : Move period s none s') :
    ∃ items', Tracks period b log items' s' := by
  cases hm with
  | sleep millis =>
    have now : _ = waited (log.map (·.1)) := h.owner
    exact ⟨items, { h with
      owner := ⟨now, Nat.le_refl _, Nat.le_add_right _ _⟩, leaving := nofun }⟩
  | leave => exact ⟨items, { h with owner := h.owner, leaving := fun _ => rfl }⟩
  | @begin time b' owner handle =>
    have none_yet : (passTimes items).length = 0 := h.task
    have start : time = 0 := by simpa [none_yet] using h.due.resolve_left nofun
    refine ⟨items, { h with
      task := ?_, due := .inr (h.due.resolve_left nofun), now := .inr (h.now.resolve_left nofun)
      stopped := nofun, ended := fun he => nomatch h.ended he }⟩
    simp [Task.At, none_yet, start]
  | tick hdue hn => exact ⟨_, h.tick hp hdue hn⟩
  | heed hk =>
    exact ⟨items, { h with
      task := trivial, due := .inl rfl, now := .inl rfl
      stopped := fun _ => h.handle.stopped hk, ended := fun _ => rfl }⟩
  | advance hi hlt => exact ⟨items, h.advance hi hlt⟩

/-- A deed is put behind the timetable once it is done. -/
theorem prolong (h : Tracks period b log items s)
    (ht : s.time = waited (log.map (·.1)) + d.millis) (hb : s'.bench = s.bench.after d)
    (htime : s'.time = s.time) (howner : s'.owner = .free)
    (hhandle : s'.handle.At (log.map (·.1) ++ [d])) (htask : s'.task = s.task ∨ s'.task = .ended)
    (hstopped : s'.task = .ended → Stopped (log.map (·.1) ++ [d]))
    (hended : Ended (log.map (·.1) ++ [d]) → s'.task = .ended) :
    ∃ items', Tracks period b (log ++ [(d, s'.bench.ledger)]) items' s' := by
  have deeds : (log ++ [(d, s'.bench.ledger)]).map (·.1) = log.map (·.1) ++ [d] := by simp
  exact ⟨items ++ [.deed s.time d], {
    timetable := by
      rw [deeds, ht]
      exact h.timetable.deed (ht ▸ h.past) (ht ▸ h.due.imp_left h.stopped)
    observed := by rw [observed_deed, h.observed, h.played, hb]
    played := by rw [played_deed, h.played, hb]
    past := by simpa [or_imp, forall_and, Item.time, htime] using h.past
    owner := by
      rw [howner, deeds, waited_concat, htime]
      exact ht
    leaving := by
      rw [howner]
      exact nofun
    handle := deeds ▸ hhandle
    task := by
      rw [passTimes_deed]
      rcases htask with he | he <;> rw [he]
      · exact h.task
      · trivial
    due := by
      rw [passTimes_deed, htime]
      exact htask.elim (· ▸ h.due) .inl
    now := by
      rw [htime]
      refine htask.elim (fun he => he ▸ h.now.imp_right fun hnow t e hmem hs => ?_) .inl
      rcases List.mem_append.1 hmem with hmem | hmem
      · exact hnow t e hmem hs
      · cases List.mem_singleton.1 hmem
        rfl
    stopped := deeds ▸ hstopped
    ended := deeds ▸ hended }⟩

/-- A deed that does not concern the watch leaves task and handle as they are. -/
theorem prolong_aside (h : Tracks period b log items s) (hd : ¬ d.Stops)
    (ht : s.time = waited (log.map (·.1)) + d.millis) (hb : s'.bench = s.bench.after d)
    (htime : s'.time = s.time) (howner : s'.owner = .free) (hhandle : s'.handle = s.handle)
    (htask : s'.task = s.task) :
    ∃ items', Tracks period b (log ++ [(d, s'.bench.ledger)]) items' s' := by
  refine h.prolong ht hb htime howner (hhandle ▸ h.handle.concat hd) (.inl htask) ?_ ?_
  · rw [htask, stopped_concat]
    exact fun he => .inl (h.stopped he)
  · rw [htask, ended_concat hd]
    exact h.ended

/-- What the owner does keeps to the timetable. -/
theorem done (h : Tracks period b log items s) (hm : Move period s (some d) s') :
    ∃ items', Tracks period b (log ++ [(d, s'.bench.ledger)]) items' s' := by
  have stops : d.Stops → Stopped (log.map (·.1) ++ [d]) := fun hd => stopped_concat.2 (.inr hd)
  cases hm with
  | atOnce hd =>
    refine h.prolong_aside hd.not_stops ?_ rfl rfl rfl rfl rfl
    rw [hd.millis_eq]
    exact h.owner
  | @wake time b' task since millis handle hend =>
    obtain ⟨hsince, -, hle⟩ : since = _ ∧ since ≤ time ∧ time ≤ since + millis := h.owner
    refine h.prolong_aside id ?_ rfl rfl rfl rfl rfl
    rw [← hsince]
    exact Nat.le_antisymm hle hend
  | tell =>
    have running : ¬ Stopped (log.map (·.1)) := h.handle
    refine h.prolong h.owner rfl rfl rfl (List.mem_append_right _ List.mem_cons_self) (.inl rfl)
      (fun _ => stops trivial) fun he => ?_
    have shut : .shutdown ∈ log.map (·.1) := by simpa [Ended] using he
    exact absurd ⟨_, shut, trivial⟩ running
  | left =>
    exact h.prolong h.owner rfl rfl rfl (stops trivial) (.inl rfl) (fun _ => stops trivial)
      fun _ => rfl
  | @drop time b' task handle hg =>
    cases handle with
    | kept =>
      exact h.prolong h.owner rfl rfl rfl (stops trivial) (.inr rfl) (fun _ => stops trivial)
        fun _ => rfl
    | told =>
      refine h.prolong h.owner rfl rfl rfl (stops trivial) (.inl rfl) (fun _ => stops trivial)
        fun he => ?_
      have told : .tell ∈ log.map (·.1) := h.handle
      exact h.ended (by simpa [Ended, told] using he)
    | gone => exact absurd rfl hg

end Tracks

section
variable {period : Nat} {b : Bench σ} {log : List (Deed × Ledger σ)} {s s₀ s' : Scene σ}

/-- Every run of a watch has a timetable. -/
theorem Runs.tracks (hp : 0 < period) (h : Runs period (.spawned b) log s) :
    ∃ items, Tracks period b log items s := by
  induction h with
  | nil => exact ⟨[], .spawned b⟩
  | silent _ hm ih =>
    obtain ⟨items, ih⟩ := ih
    exact ih.silent hp hm
  | done _ hm ih =>
    obtain ⟨items, ih⟩ := ih
    exact ih.done hm

/-- A task that has ended does nothing any more: what still changes clock and ledger are the deeds
of the owner. -/
theorem Runs.of_ended (h : Runs period s₀ log s) (he : s₀.task = .ended) :
    s.task = .ended ∧ s.bench = (log.map (·.1)).foldl Bench.after s₀.bench := by
  induction h with
  | nil => exact ⟨he, rfl⟩
  | silent _ hm ih =>
    obtain ⟨hs, hb⟩ := ih
    cases hm with
    | sleep | leave | advance => exact ⟨hs, hb⟩
    | begin | tick | heed => cases hs
  | done _ hm ih =>
    obtain ⟨hs, hb⟩ := ih
    rw [List.map_append, List.foldl_append, ← hb]
    cases hm with
    | atOnce | wake | tell | left => exact ⟨hs, rfl⟩
    | @drop _ _ _ handle =>
      cases handle with
      | kept => exact ⟨rfl, rfl⟩
      | told | gone => exact ⟨hs, rfl⟩

end

/-! ## The owner gets on -/

/-- Whatever happens, it leads to a scene in which the owner can do something. -/
inductive Returns (period : Nat) : Scene σ → Prop
  | free {s : Scene σ} (h : s.owner = .free) : Returns period s
  | later {s : Scene σ} (can : ∃ done s', Move period s done s')
      (all : ∀ {done : Option Deed} {s' : Scene σ}, Move period s done s' → Returns period s') :
      Returns period s

/-- There is always something that can happen. -/
theorem exists_move (period : Nat) (s : Scene σ) (hl : s.owner = .leaving → s.handle = .told) :
    ∃ done s', Move period s done s' := by
  obtain ⟨time, b, task, owner, handle⟩ := s
  cases owner with
  | free => exact ⟨none, _, .sleep 0⟩
  | leaving =>
    obtain rfl : handle = .told := hl rfl
    cases task with
    | fresh => exact ⟨none, _, .begin⟩
    | waiting next => exact ⟨none, _, .heed nofun⟩
    | ended => exact ⟨_, _, .left⟩
  | asleep since millis =>
    by_cases hw : since + millis ≤ time
    · exact ⟨_, _, .wake hw⟩
    have later : time < since + millis := Nat.lt_of_not_le hw
    cases task with
    | fresh => exact ⟨none, _, .begin⟩
    | waiting next =>
      by_cases ht : next ≤ time
      · exact ⟨none, _, .tick ht (.inl rfl)⟩
      by_cases hk : handle = .kept
      · exact ⟨none, _, .advance hk (Nat.lt_min.2 ⟨Nat.lt_of_not_le ht, later⟩)⟩
      · exact ⟨none, _, .heed hk⟩
    | ended => exact ⟨none, _, .advance trivial later⟩

/-- The time until which the owner is held up at least. -/
def Owner.heldUntil (time : Nat) : Owner → Nat
  | .free | .leaving => time
  | .asleep since millis => since + millis

/-- An owner does not sleep longer than that. -/
theorem Owner.At.le_heldUntil {time total : Nat} {owner : Owner} (h : owner.At time total) :
    time ≤ owner.heldUntil time := by
  cases owner with
  | free | leaving => exact Nat.le_refl _
  | asleep since millis => exact h.2.2

/-- A bound for the moves of a task until a time. -/
def Task.weight (time : Nat) : Task → Nat
  | .fresh => time + 3
  | .waiting next => time + 1 - next + 1
  | .ended => 0

/-- A bound for the moves until the owner is free. -/
def Scene.weight (s : Scene σ) : Nat :=
  s.owner.heldUntil s.time - s.time + s.task.weight (s.owner.heldUntil s.time)

section
variable {period : Nat} {b : Bench σ} {log : List (Deed × Ledger σ)} {items : List Item}
variable {s s' : Scene σ}

/-- While the owner is held up, whatever happens unseen brings its end nearer. For a tick this is so
because there is time between two of them. -/
theorem Tracks.weight_lt (hp : 0 < period) (h : Tracks period b log items s)
    (hm : Move period s none s') (hb : s.owner ≠ .free) : s'.weight < s.weight := by
  have in_time : s.time ≤ s.owner.heldUntil s.time := h.owner.le_heldUntil
  cases hm with
  | sleep | leave => exact absurd rfl hb
  | begin =>
    refine Nat.add_lt_add_left ?_ _
    simp only [Task.weight]
    omega
  | tick hdue hn =>
    refine Nat.add_lt_add_left ?_ _
    simp only [Task.weight] at in_time ⊢
    omega
  | heed => exact Nat.add_lt_add_left (Nat.succ_pos _) _
  | @advance time b' task since millis handle _ hlt =>
    refine Nat.add_lt_add_right ?_ _
    simp only [Owner.heldUntil]
    have := task.firstTimer_le (since + millis)
    omega

/-- A wait ends, and so does a shutdown, in whichever order things happen. -/
theorem Tracks.returns (hp : 0 < period) (h : Tracks period b log items s) : Returns period s := by
  induction hw : s.weight using Nat.strongRecOn generalizing s items with
  | ind n ih =>
    by_cases hb : s.owner = .free
    · exact .free hb
    refine .later (exists_move period s h.leaving) fun {done s'} hm => ?_
    cases done with
    | none =>
      obtain ⟨items', h'⟩ := h.silent hp hm
      exact ih _ (hw ▸ h.weight_lt hp hm hb) h' rfl
    | some d => cases hm <;> exact .free rfl

end

end LabLease.Watch
