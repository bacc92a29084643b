import LabLease.Command.Folder
import LabLease.Proofs.Command.Documents
import LabLease.Proofs.Failure.Steps
import LabLease.Proofs.Store.Table

/-!
# One envelope per command

Where the answer to a command comes from. The broker is assembled from what is found under the paths
of the options (`Command.Assembled`), or one step of that fails (`Command.AssemblyFails`). The
broker turns the call down (`Command.CallFails`), or the request never reaches it
(`Command.TurnedDown`). A run gives back the failure that it met, with what was being done
(`Command.run_eq_failure_iff`).

Main statement: whatever is found, a command line that is read prints one document, which tells how
the command ended, and the exit status agrees with it (`CommandLine.read_answered`).
-/

namespace LabLease

namespace Command

variable {o : Options} {c : Command} {s : Settings} {reg : Registry} {B : Broker CommandStore}
  {now : Instant} {draw : Nat → String} {doing : List String} {f : Failure}

/-! ## Steps -/

/-- A step is described by what it gives and by the failures that it meets. -/
structure Yields {α : Type} (x : Except Refusal α) (P : α → Prop)
    (Q : List String → Failure → Prop) : Prop where
  ok_iff : ∀ a, x = .ok a ↔ P a
  error_iff : ∀ r, x = .error r ↔ ∃ doing f, Q doing f ∧ r = .failure doing f

section Yields

variable {α : Type} {x : Except Refusal α} {P : α → Prop} {Q : List String → Failure → Prop}

/-- The failures of a step with what was being done are its errors. -/
theorem yields_iff : Yields x P Q ↔
    Described x P fun r => ∃ doing f, Q doing f ∧ r = .failure doing f :=
  ⟨fun h => ⟨h.ok_iff _, h.error_iff _⟩, fun h => ⟨fun _ => h.ok_iff, fun _ => h.error_iff⟩⟩

/-- Of a description that leaves nothing open one direction is enough. -/
theorem Yields.of_total (hok : ∀ a, P a → x = .ok a)
    (herr : ∀ doing f, Q doing f → x = .error (.failure doing f))
    (total : (∃ a, P a) ∨ ∃ doing f, Q doing f) : Yields x P Q := by
  refine yields_iff.2 (.of_total hok ?_ ?_)
  · rintro _ ⟨doing, f, hf, rfl⟩
    exact herr doing f hf
  · exact total.imp_right fun ⟨doing, f, hf⟩ => ⟨_, doing, f, hf, rfl⟩

theorem Yields.total (h : Yields x P Q) : (∃ a, P a) ∨ ∃ doing f, Q doing f :=
  (yields_iff.1 h).total.imp_right fun ⟨_, doing, f, hf, _⟩ => ⟨doing, f, hf⟩

theorem Yields.eq_ok (h : Yields x P Q) {a : α} (ha : P a) : x = .ok a := (h.ok_iff a).2 ha

theorem Yields.eq_error (h : Yields x P Q) (hf : Q doing f) : x = .error (.failure doing f) :=
  (h.error_iff _).2 ⟨doing, f, hf, rfl⟩

end Yields

/-! ## Settings -/

section Settings

variable {found : Surroundings}

/-- The settings before the options replace any of them. -/
inductive Given (o : Options) (found : Surroundings) : Settings → Prop
  | default (h : o.settings = none) : Given o found {}
  | file {path : String} {s : Settings} (h : o.settings = some path)
      (hs : Settings.load path found.complaint found.settings = .ok s) : Given o found s

/-- The settings are in effect. -/
inductive InEffect (o : Options) (found : Surroundings) : Settings → Prop
  | intro {s : Settings} (h : Given o found s) (hs : (o.override s).check = .ok ()) :
      InEffect o found (o.override s)

/-- No settings come into effect. -/
inductive SettingsFail (o : Options) (found : Surroundings) :
    List String → Failure → Prop
  | file {path : String} {f : Failure} (h : o.settings = some path)
      (hf : Settings.load path found.complaint found.settings = .error f) :
      SettingsFail o found ["loading config " ++ path] f
  | check {s : Settings} {f : Failure} (h : Given o found s)
      (hf : (o.override s).check = .error f) : SettingsFail o found [] f

theorem InEffect.check (h : InEffect o found s) : s.check = .ok () := by
  cases h with
  | intro _ hs => exact hs

theorem settings_yields (o : Options) (found : Surroundings) :
    Yields (settings o found) (InEffect o found) (SettingsFail o found) := by
  refine .of_total ?_ ?_ ?_
  · rintro _ ⟨given, hs⟩
    cases given with
    | default h => simp [settings, h, hs, bind, Except.bind]
    | file h hl => simp [settings, h, hl, hs, bind, Except.bind]
  · rintro _ _ (⟨h, hf⟩ | ⟨given, hf⟩)
    · simp [settings, h, hf, bind, Except.bind]
    · cases given with
      | default h => simp [settings, h, hf, bind, Except.bind]
      | file h hl => simp [settings, h, hl, hf, bind, Except.bind]
  -- whoever gave the settings, they are looked at again once the options have replaced some
  · have checked {s : Settings} (h : Given o found s) :
        (∃ s, InEffect o found s) ∨ ∃ doing f, SettingsFail o found doing f := by
      cases hs : (o.override s).check with
      | error f => exact .inr ⟨_, _, .check h hs⟩
      | ok u => exact .inl ⟨_, .intro h hs⟩
    cases h : o.settings with
    | none => exact checked (.default h)
    | some path =>
      cases hl : Settings.load path found.complaint found.settings with
      | error f => exact .inr ⟨_, _, .file h hl⟩
      | ok s => exact checked (.file h hl)

end Settings

/-! ## Exporters -/

section Registry

variable {found : Surroundings}

/-- The registry lists what is known. -/
inductive Known (o : Options) (found : Surroundings) : Registry → Prop
  | unset (h : o.inventory = none) : Known o found Registry.empty
  | file {path : String} {inv : Inventory} (h : o.inventory = some path)
      (hi : Inventory.load path found.complaint found.inventory = .ok inv) :
      Known o found inv.registry

/-- The inventory cannot be used. -/
inductive InventoryFails (o : Options) (found : Surroundings) :
    List String → Failure → Prop
  | file {path : String} {f : Failure} (h : o.inventory = some path)
      (hf : Inventory.load path found.complaint found.inventory = .error f) :
      InventoryFails o found ["loading inventory " ++ path] f

theorem registry_yields (o : Options) (found : Surroundings) :
    Yields (registry o found) (Known o found) (InventoryFails o found) := by
  refine .of_total ?_ ?_ ?_
  · rintro _ (h | ⟨h, hi⟩)
    · simp only [registry, h]
    · simp only [registry, h, hi]
  · rintro _ _ ⟨h, hf⟩
    simp only [registry, h, hf]
  · cases h : o.inventory with
    | none => exact .inl ⟨_, .unset h⟩
    | some path =>
      cases hi : Inventory.load path found.complaint found.inventory with
      | error f => exact .inr ⟨_, _, .file h hi⟩
      | ok inv => exact .inl ⟨_, .file h hi⟩

end Registry

/-! ## Records -/

section Ledger

variable {found : Except BackendFault TableStore}

/-- The ledger has the records that are kept. -/
inductive Kept (o : Options) (found : Except BackendFault TableStore) (bounds : SpanRange) :
    Ledger CommandStore → Prop
  | memory (h : o.database? = none) :
      Kept o found bounds (Ledger.blank bounds (.inl MemoryStore.empty))
  | database {text : String} {store : TableStore} {L : Ledger CommandStore}
      (h : o.database? = some text) (hf : found = .ok store)
      (hL : Ledger.ofStore bounds (.inr store) = .ok L) : Kept o found bounds L

/-- The database cannot be opened, or its records make no ledger. -/
inductive DatabaseFails (o : Options) (found : Except BackendFault TableStore)
    (bounds : SpanRange) : List String → Failure → Prop
  | opening {text : String} {fault : BackendFault} (h : o.database? = some text)
      (hf : found = .error fault) :
      DatabaseFails o found bounds ["opening SQLite lease store at " ++ quoted text]
        (.store (.backend fault))
  | loading {text : String} {store : TableStore} {f : Failure} (h : o.database? = some text)
      (hf : found = .ok store)
      (hL : Ledger.ofStore bounds (.inr store : CommandStore) = .error f) :
      DatabaseFails o found bounds ["opening SQLite lease store at " ++ quoted text] f

/-- The broker under settings, over the database or over process memory. -/
def brokerUnder (o : Options) (s : Settings) (found : Except BackendFault TableStore) :
    Except Refusal (Broker CommandStore) :=
  openDatabase o found >>= assemble o s

/-- Under settings without a flaw it is for the records whether there is a broker. -/
theorem brokerUnder_yields (o : Options) (found : Except BackendFault TableStore)
    (hs : s.check = .ok ()) :
    Yields (brokerUnder o s found)
      (fun B => B.settings = s ∧ Kept o found s.bounds B.ledger)
      (DatabaseFails o found s.bounds) := by
  refine .of_total ?_ ?_ ?_
  · rintro ⟨s', L⟩ ⟨hs', hk⟩
    obtain rfl : s' = s := hs'
    have kept : Kept o found s'.bounds L := hk
    cases kept with
    | memory h =>
      simp [brokerUnder, openDatabase, assemble, Broker.ofLedger, h, hs, bind, Except.bind]
    | database h hf hL =>
      simp [brokerUnder, openDatabase, assemble, Broker.ofStore, h, hf, hs, hL, bind,
        Except.bind]
  · rintro _ _ (⟨h, hf⟩ | ⟨h, hf, hL⟩)
    · simp [brokerUnder, openDatabase, refuseDatabase, h, hf, bind, Except.bind]
    · simp [brokerUnder, openDatabase, assemble, refuseDatabase, Broker.ofStore, h, hf, hs, hL,
        bind, Except.bind]
  · cases h : o.database? with
    | none => exact .inl ⟨⟨s, _⟩, rfl, .memory h⟩
    | some text =>
      cases hf : found with
      | error fault => exact .inr ⟨_, _, .opening h rfl⟩
      | ok store =>
        cases hL : Ledger.ofStore s.bounds (.inr store : CommandStore) with
        | error f => exact .inr ⟨_, _, .loading h rfl hL⟩
        | ok L => exact .inl ⟨⟨s, L⟩, rfl, .database h rfl hL⟩

end Ledger

/-! ## The broker -/

/-- The broker is assembled, with what the registry lists. -/
structure Assembled (o : Options) (found : Surroundings) (reg : Registry)
    (B : Broker CommandStore) : Prop where
  /-- Its settings are in effect. -/
  settings : InEffect o found B.settings
  /-- The registry lists what is known. -/
  registry : Known o found reg
  /-- Its ledger has the records that are kept. -/
  ledger : Kept o found.database B.settings.bounds B.ledger

/-- The first step in assembling the broker that fails, with what was being done. -/
inductive AssemblyFails (o : Options) (found : Surroundings) : List String → Failure → Prop
  | settings {doing : List String} {f : Failure} (h : SettingsFail o found doing f) :
      AssemblyFails o found doing f
  | inventory {s : Settings} {doing : List String} {f : Failure}
      (hs : InEffect o found s) (h : InventoryFails o found doing f) :
      AssemblyFails o found doing f
  | database {s : Settings} {reg : Registry} {doing : List String} {f : Failure}
      (hs : InEffect o found s) (hr : Known o found reg)
      (h : DatabaseFails o found.database s.bounds doing f) : AssemblyFails o found doing f

/-- The registry and the broker that a command is put to, or why there are none. -/
def assembled (o : Options) (found : Surroundings) :
    Except Refusal (Registry × Broker CommandStore) := do
  let s ← settings o found
  let reg ← registry o found
  let B ← brokerUnder o s found.database
  .ok (reg, B)

theorem assembled_yields (o : Options) (found : Surroundings) :
    Yields (assembled o found) (fun p => Assembled o found p.1 p.2) (AssemblyFails o found) := by
  have settled := settings_yields o found
  have listed := registry_yields o found
  have kept {s : Settings} (hs : InEffect o found s) :=
    brokerUnder_yields o found.database hs.check
  refine .of_total ?_ ?_ ?_
  · rintro ⟨reg, B⟩ h
    have opened := (kept h.settings).eq_ok ⟨rfl, h.ledger⟩
    simp [assembled, settled.eq_ok h.settings, listed.eq_ok h.registry, opened, bind, Except.bind]
  · rintro doing f (h | ⟨hs, h⟩ | ⟨hs, hr, h⟩)
    · simp [assembled, settled.eq_error h, bind, Except.bind]
    · simp [assembled, settled.eq_ok hs, listed.eq_error h, bind, Except.bind]
    · have failed := (kept hs).eq_error h
      simp [assembled, settled.eq_ok hs, listed.eq_ok hr, failed, bind, Except.bind]
  · obtain ⟨s, hs⟩ | ⟨doing, f, h⟩ := settled.total
    · obtain ⟨reg, hr⟩ | ⟨doing, f, h⟩ := listed.total
      · obtain ⟨B, rfl, hB⟩ | ⟨doing, f, h⟩ := (kept hs).total
        · exact .inl ⟨(reg, B), hs, hr, hB⟩
        · exact .inr ⟨doing, f, .database hs hr h⟩
      · exact .inr ⟨doing, f, .inventory hs h⟩
    · exact .inr ⟨doing, f, .settings h⟩

/-! ## Calls -/

/-- The broker turns a call down. -/
inductive CallFails (B : Broker CommandStore) (listed : List Exporter) (now : Instant)
    (draw : Nat → String) : Command → Failure → Prop
  | exporters {q : ExporterQuery} {f : Failure} (h : B.exporters q listed now = .error f) :
      CallFails B listed now draw (.exporters q) f
  | leases {selector : Option String} {f : Failure} (h : B.list selector listed now = .error f) :
      CallFails B listed now draw (.leases selector) f
  | create {r : Request} {f : Failure} (hr : r.flaw? = none)
      (h : (B.allocate r.order listed now (B.ledger.unused draw)).1 = .error f) :
      CallFails B listed now draw (.create r) f
  | display {id : String} {f : Failure} (h : B.lease id now = .error f) :
      CallFails B listed now draw (.display id) f
  | release {id : String} {f : Failure} (h : (B.release id now).1 = .error f) :
      CallFails B listed now draw (.release id) f

theorem answer_eq_failure_iff {α : Type} {report : α → Json} {answered : Except Failure α} :
    answer report answered = .error (.failure doing f) ↔ doing = [] ∧ answered = .error f := by
  cases answered with
  | error f => simp [answer, eq_comm]
  | ok a => simp [answer]

theorem answer_ne_request {α : Type} {report : α → Json} {answered : Except Failure α}
    {flaw : RequestFlaw} : answer report answered ≠ .error (.request flaw) := by
  cases answered <;> simp [answer]

/-- What is put to a broker fails with the failure of the call. -/
theorem put_eq_failure_iff {listed : List Exporter} :
    (c.put B listed now draw).1 = .error (.failure doing f) ↔
      doing = [] ∧ CallFails B listed now draw c f := by
  cases c with
  | exporters q =>
    refine answer_eq_failure_iff.trans (and_congr_right' ⟨.exporters, fun h => ?_⟩)
    cases h with
    | exporters h => exact h
  | leases selector =>
    refine answer_eq_failure_iff.trans (and_congr_right' ⟨.leases, fun h => ?_⟩)
    cases h with
    | leases h => exact h
  | create r =>
    cases hr : r.flaw? with
    | some flaw =>
      simp only [put, hr]
      constructor
      · intro h
        cases h
      · rintro ⟨-, h⟩
        cases h with
        | create hnone _ =>
          rw [hr] at hnone
          cases hnone
    | none =>
      simp only [put, hr]
      refine answer_eq_failure_iff.trans (and_congr_right' ⟨.create hr, fun h => ?_⟩)
      cases h with
      | create _ h => exact h
  | display id =>
    refine answer_eq_failure_iff.trans (and_congr_right' ⟨.display, fun h => ?_⟩)
    cases h with
    | display h => exact h
  | release id =>
    refine answer_eq_failure_iff.trans (and_congr_right' ⟨.release, fun h => ?_⟩)
    cases h with
    | release h => exact h
  | summary | sweep | watch | version =>
    constructor
    · intro h
      cases h
    · rintro ⟨-, h⟩
      cases h

/-- Only a request with a flaw is turned down before it reaches the broker. -/
theorem put_eq_request_iff {listed : List Exporter} {flaw : RequestFlaw} :
    (c.put B listed now draw).1 = .error (.request flaw) ↔
      ∃ r, c = .create r ∧ r.flaw? = some flaw := by
  cases c with
  | create r =>
    cases hr : r.flaw? with
    | some flaw' => simp [put, hr]
    | none =>
      simp only [put, hr]
      refine ⟨fun h => (answer_ne_request h).elim, ?_⟩
      rintro ⟨r', hr', hflaw⟩
      rw [← Command.create.inj hr', hr] at hflaw
      cases hflaw
  | exporters | leases | display | release =>
    refine ⟨fun h => (answer_ne_request h).elim, ?_⟩
    rintro ⟨_, h, -⟩
    cases h
  | summary | sweep | watch | version =>
    constructor
    · intro h
      cases h
    · rintro ⟨_, h, -⟩
      cases h

/-! ## A run -/

variable {found : Surroundings}

/-- A command fails with a failure of the broker, or of what it is assembled from, while `doing`
goes on. -/
inductive Fails (o : Options) (c : Command) (found : Surroundings) (now : Instant)
    (draw : Nat → String) : List String → Failure → Prop
  | assembly {doing : List String} {f : Failure} (hc : c ≠ .version)
      (h : AssemblyFails o found doing f) : Fails o c found now draw doing f
  | call {reg : Registry} {B : Broker CommandStore} {f : Failure} (hB : Assembled o found reg B)
      (h : CallFails B reg.list now draw c f) : Fails o c found now draw [] f

/-- A request is turned down for a flaw of its own, before it reaches the broker. -/
inductive TurnedDown (o : Options) (found : Surroundings) : Command → RequestFlaw → Prop
  | intro {r : Request} {flaw : RequestFlaw} {reg : Registry} {B : Broker CommandStore}
      (hB : Assembled o found reg B) (hr : r.flaw? = some flaw) :
      TurnedDown o found (.create r) flaw

/-- A command other than that for the version is put to the broker that is assembled for it. What
becomes of the database is another matter. -/
theorem run_fst (hc : c ≠ .version) :
    (c.run o found now draw).1 =
      assembled o found >>= fun p => (c.put p.2 p.1.list now draw).1 := by
  rw [run, if_neg hc, assembled]
  cases hs : settings o found with
  | error r => rfl
  | ok s =>
    cases hr : registry o found with
    | error r => rfl
    | ok reg =>
      cases hd : openDatabase o found.database with
      | error r => simp [brokerUnder, hd, bind, Except.bind]
      | ok opened =>
        cases hB : assemble o s opened <;> simp [brokerUnder, hd, hB, bind, Except.bind]

/-- A run fails with the failure that it met. -/
theorem run_eq_failure_iff :
    (c.run o found now draw).1 = .error (.failure doing f) ↔
      Fails o c found now draw doing f := by
  have outcome := assembled_yields o found
  by_cases hc : c = .version
  · subst hc
    refine ⟨nofun, ?_⟩
    rintro (⟨hc, -⟩ | ⟨-, ⟨⟩⟩)
    exact absurd rfl hc
  · rw [run_fst hc, bind_eq_error_iff, outcome.error_iff]
    constructor
    · rintro (⟨doing, f, h, ⟨⟩⟩ | ⟨⟨reg, B⟩, hB, h⟩)
      · exact .assembly hc h
      · obtain ⟨rfl, hf⟩ := put_eq_failure_iff.1 h
        exact .call ((outcome.ok_iff _).1 hB) hf
    · rintro (⟨-, h⟩ | ⟨hB, h⟩)
      · exact .inl ⟨doing, f, h, rfl⟩
      · exact .inr ⟨(_, _), outcome.eq_ok hB, put_eq_failure_iff.2 ⟨rfl, h⟩⟩

/-- A run turns a request down for the flaw that it has. -/
theorem run_eq_request_iff {flaw : RequestFlaw} :
    (c.run o found now draw).1 = .error (.request flaw) ↔ TurnedDown o found c flaw := by
  have outcome := assembled_yields o found
  by_cases hc : c = .version
  · subst hc
    exact ⟨nofun, nofun⟩
  · rw [run_fst hc, bind_eq_error_iff, outcome.error_iff]
    constructor
    · rintro (⟨doing, f, h, ⟨⟩⟩ | ⟨⟨reg, B⟩, hB, h⟩)
      obtain ⟨r, rfl, hr⟩ := put_eq_request_iff.1 h
      exact .intro ((outcome.ok_iff _).1 hB) hr
    · rintro ⟨hB, hr⟩
      exact .inr ⟨(_, _), outcome.eq_ok hB, put_eq_request_iff.2 ⟨_, rfl, hr⟩⟩

/-- How a command is answered, whatever is found when it starts. -/
structure Answered (o : Options) (c : Command) (found : Surroundings) (now : Instant)
    (draw : Nat → String) (reply : Reply) : Prop where
  /-- The exit status is 0 or 1. -/
  status : reply.status = 0 ∨ reply.status = 1
  /-- It is 0 exactly if what is printed is the document of a success. -/
  success : reply.status = 0 ↔ ∃ data, Json.parse? reply.output = some (successDocument data)
  /-- It is 1 exactly if what is printed is the document of a failure. -/
  failure : reply.status = 1 ↔
    ∃ kind error, Json.parse? reply.output = some (failureDocument kind error)
  /-- A kind is given exactly if a failure of the broker, or of what it is assembled from, is behind
  it. It is the kind of that failure, whose words stand behind what was being done. -/
  kind : ∀ kind error, Json.parse? reply.output = some (failureDocument (some kind) error) ↔
    ∃ doing f, Fails o c found now draw doing f ∧ kind = f.code ∧ error = f.chain doing
  /-- None is given exactly if the request has a flaw of its own, which is the error. -/
  noKind : ∀ error, Json.parse? reply.output = some (failureDocument none error) ↔
    ∃ flaw, TurnedDown o found c flaw ∧ error = flaw.message

/-- The reply to a command that gives something. -/
theorem answered_ok (hc : c ≠ .watch) {data : Json} (h : (c.run o found now draw).1 = .ok data) :
    Answered o c found now draw (.ofAnswer c (.ok data)) := by
  have document := Reply.parse?_ofAnswer_ok hc (run_plain h)
  have status : (Reply.ofAnswer c (.ok data)).status = 0 := rfl
  have no (kind : Option String) (error : String) :
      some (successDocument data) ≠ some (failureDocument kind error) :=
    fun heq => successDocument_ne_failureDocument _ _ _ (Option.some.inj heq)
  refine ⟨.inl status, ?_, ?_, fun kind error => ?_, fun error => ?_⟩ <;> rw [document]
  · exact iff_of_true status ⟨data, rfl⟩
  · rw [status]
    exact iff_of_false (by decide) fun ⟨_, _, heq⟩ => no _ _ heq
  · refine iff_of_false (no _ _) ?_
    rintro ⟨doing, f, hf, -⟩
    rw [run_eq_failure_iff.2 hf] at h
    cases h
  · refine iff_of_false (no _ _) ?_
    rintro ⟨flaw, hf, -⟩
    rw [run_eq_request_iff.2 hf] at h
    cases h

/-- The reply to a command that is refused. -/
theorem answered_error {r : Refusal} (h : (c.run o found now draw).1 = .error r) :
    Answered o c found now draw (.ofAnswer c (.error r)) := by
  have document := Reply.parse?_ofAnswer_error (c := c) r
  have status : (Reply.ofAnswer c (.error r)).status = 1 := rfl
  have failed (doing : List String) (f : Failure) :
      Fails o c found now draw doing f ↔ r = .failure doing f :=
    run_eq_failure_iff.symm.trans (by rw [h, Except.error.injEq])
  have turnedDown (flaw : RequestFlaw) : TurnedDown o found c flaw ↔ r = .request flaw :=
    run_eq_request_iff.symm.trans (by rw [h, Except.error.injEq])
  refine ⟨.inr status, ?_, ?_, fun kind error => ?_, fun error => ?_⟩ <;> rw [document]
  · rw [status]
    refine iff_of_false (by decide) ?_
    rintro ⟨data, heq⟩
    exact successDocument_ne_failureDocument _ _ _ (Option.some.inj heq).symm
  · exact iff_of_true status ⟨_, _, rfl⟩
  · rw [Option.some.injEq, failureDocument_inj]
    simp only [failed]
    cases r with
    | request flaw => simp [Refusal.code?]
    | failure doing f => simp [Refusal.code?, Refusal.message, eq_comm]
  · rw [Option.some.injEq, failureDocument_inj]
    simp only [turnedDown]
    cases r with
    | request flaw => simp [Refusal.code?, Refusal.message, eq_comm]
    | failure doing f => simp [Refusal.code?]

/-- Every command but a watch is answered by one document. -/
theorem run_answered (hc : c ≠ .watch) :
    Answered o c found now draw (.ofAnswer c (c.run o found now draw).1) := by
  cases h : (c.run o found now draw).1 with
  | ok data => exact answered_ok hc h
  | error r => exact answered_error h

end Command

end LabLease
