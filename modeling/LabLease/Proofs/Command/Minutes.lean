import LabLease.Proofs.Broker.Bookings
import LabLease.Proofs.Command.Envelope
import LabLease.Proofs.Ledger.Term

/-!
# Minutes that are asked for and minutes that are granted

A request for a lease counts minutes, settings count minutes, a ledger compares spans and records
milliseconds, and a report counts minutes again. Whoever asks for a number of minutes sees none of
this (`Command.create_minutes_meet`): no minutes are turned down with the request, minutes outside
those of the settings in effect are out of range, compared as they are written, and a lease that is
granted is recorded with that many times sixty thousand milliseconds and reported with that many
minutes. In particular a number of minutes too large to be counted in seconds, which stands for the
longest span there is, is never taken for one that is allowed
(`Settings.ofMinutes_mem_bounds_iff`).
-/

namespace LabLease

variable {l : Lease} {s : Settings} {r : Request} {now : Instant} {n : UInt64}

/-! ## Reports -/

/-- The minutes that a document gives for the length of a lease. -/
def reportedMinutes (data : Json) : Option UInt64 := do
  let fields ← data.fields? ["duration_minutes"]
  Json.field fields "duration_minutes" Json.toWord?

/-- The report of a lease gives its whole minutes. -/
theorem reportedMinutes_report (h : l.span.minutes = n.toNat) :
    reportedMinutes l.report = some n := by
  have fields : l.report.fields? ["duration_minutes"] =
      some [("duration_minutes", .ofNat l.span.minutes)] := by
    cases hname : l.name <;>
      simp [Lease.report, hname, Lease.nameField, Json.ofFields, Json.fields?, Json.knownMembers]
  rw [reportedMinutes, fields, h]
  exact Text.word?_repr n

/-- A lease that was booked for some minutes that are allowed lasts for as many. -/
theorem Booking.minutes_lease (hs : s.check = .ok ()) {b : Booking} (hb : b.span = .ofMinutes n)
    (hn : Span.ofMinutes n ∈ s.bounds) (id : String) :
    (b.lease now id).durationMs.toNat = 60000 * n.toNat ∧
      (b.lease now id).span.minutes = n.toNat := by
  have duration := toNat_durationMs hs (hb ▸ hn) now id
  obtain ⟨-, -, hlt, -⟩ := Settings.check_eq_ok_iff.1 hs
  obtain ⟨-, hle⟩ := (Settings.ofMinutes_mem_bounds_iff hs n).1 hn
  rw [hb, Span.ofMinutes_of_lt (by omega), Span.nanos_ofSecs] at duration
  have millis : (b.lease now id).durationMs.toNat = 60000 * n.toNat := by omega
  refine ⟨millis, ?_⟩
  simp only [Lease.span, Span.minutes, Span.secs, Span.ofMillis, millis]
  omega

/-! ## Requests -/

/-- A request with a selector that is not blank, and with no name or one that is not blank, has a
flaw only if it asks for no minutes. -/
theorem Request.flaw?_eq (hsel : Text.allBlank r.selector = false)
    (hname : r.name.any Text.allBlank = false) :
    r.flaw? = if r.minutes.toNat = 0 then some .zeroMinutes else none := by
  have zero : r.minutes = 0 ↔ r.minutes.toNat = 0 := UInt64.toNat_inj.symm
  simp [flaw?, hsel, hname, zero]

variable {σ : Type} [LeaseStore σ] {L L' : Ledger σ} {o : Order} {listed : List Exporter}
  {id : String} {a : Except Failure Lease}

/-- An order that can be read is refused as out of range exactly if its length may not be granted,
and then by naming both. -/
theorem AllocateOutcome.outOfRange_iff {sel : Selector}
    (ho : AllocateOutcome L o listed now id a L') (hs : Selector.parse o.selector = .ok sel)
    {f : Failure} : a = .error f ∧ f.code = "DURATION_OUT_OF_RANGE" ↔
      o.span ∉ L.bounds ∧ f = .spanOutOfRange o.span L.bounds := by
  have other (hb : o.span ∈ L.bounds)
      (ha : ∀ f, a = .error f → f.code ≠ "DURATION_OUT_OF_RANGE") :
      a = .error f ∧ f.code = "DURATION_OUT_OF_RANGE" ↔
        o.span ∉ L.bounds ∧ f = .spanOutOfRange o.span L.bounds :=
    iff_of_false (fun h => ha f h.1 h.2) fun h => h.1 hb
  cases ho with
  | badSelector hs' =>
    rw [hs'] at hs
    cases hs
  | outOfRange _ hb =>
    constructor
    · rintro ⟨⟨⟩, -⟩
      exact ⟨hb, rfl⟩
    · rintro ⟨-, rfl⟩
      exact ⟨rfl, rfl⟩
  | noExporter _ hb | allLeased _ hb =>
    refine other hb ?_
    rintro _ ⟨⟩
    simp [Failure.code]
  | claimed _ hb _ _ hclaim =>
    refine other hb ?_
    rintro f rfl
    cases hclaim with
    | outOfRange hb' => exact absurd hb hb'
    | held | stuck | cutShort | refused => simp [Failure.code]

namespace Command

variable {o : Options} {c : Command} {found : Surroundings} {reg : Registry}
  {B : Broker CommandStore} {draw : Nat → String} {doing : List String} {f : Failure} {data : Json}

/-- The document of a success is printed exactly if the run gives its data. -/
theorem parse?_run_eq_success_iff (hc : c ≠ .watch) :
    Json.parse? (Reply.ofAnswer c (c.run o found now draw).1).output =
      some (successDocument data) ↔ (c.run o found now draw).1 = .ok data := by
  cases h : (c.run o found now draw).1 with
  | ok data' =>
    rw [Reply.parse?_ofAnswer_ok hc (run_plain h), Option.some.injEq, successDocument_inj,
      Except.ok.injEq]
  | error r =>
    rw [Reply.parse?_ofAnswer_error, Option.some.injEq]
    exact iff_of_false (successDocument_ne_failureDocument _ _ _).symm nofun

/-! ## Commands to a broker that is assembled -/

section Assembled

variable (hB : Assembled o found reg B)

include hB

/-- The ledger of a broker that is assembled is consistent, and has the bounds of the settings. -/
theorem Assembled.ledger_ok :
    B.ledger.Consistent ∧ B.ledger.bounds = B.settings.bounds := by
  obtain ⟨-, -, hledger⟩ := hB
  generalize B.ledger = L at hledger
  cases hledger with
  | memory => exact ⟨Ledger.consistent_blank, rfl⟩
  | database _ _ hL => exact ⟨Ledger.consistent_ofStore hL, (Ledger.kept_of_ofStore hL).1⟩

/-- A run of a command gives what it gives when it is put to the broker. -/
theorem Assembled.run_fst (hc : c ≠ .version) :
    (c.run o found now draw).1 = (c.put B reg.list now draw).1 := by
  rw [Command.run_fst hc, (assembled_yields o found).eq_ok (a := (reg, B)) hB]
  rfl

/-- A command fails if the broker turns the call down. -/
theorem Assembled.fails_iff (hc : c ≠ .version) :
    Fails o c found now draw doing f ↔ doing = [] ∧ CallFails B reg.list now draw c f := by
  rw [← run_eq_failure_iff, hB.run_fst hc, put_eq_failure_iff]

/-- A request is turned down for the flaw that it has. -/
theorem Assembled.turnedDown_iff {flaw : RequestFlaw} :
    TurnedDown o found (.create r) flaw ↔ r.flaw? = some flaw := by
  refine ⟨fun h => ?_, .intro hB⟩
  cases h with
  | intro _ hr => exact hr

end Assembled

/-- The call for a request without a flaw fails with the failure of the allocation. -/
theorem callFails_create_iff {listed : List Exporter} :
    CallFails B listed now draw (.create r) f ↔ r.flaw? = none ∧
      (B.allocate r.order listed now (B.ledger.unused draw)).1 = .error f := by
  refine ⟨fun h => ?_, fun h => .create h.1 h.2⟩
  cases h with
  | create hr h => exact ⟨hr, h⟩

/-- A request succeeds with the report of the lease that it is granted. -/
theorem put_create_eq_ok_iff {listed : List Exporter} :
    ((create r).put B listed now draw).1 = .ok data ↔ r.flaw? = none ∧
      ∃ l, (B.allocate r.order listed now (B.ledger.unused draw)).1 = .ok l ∧ data = l.report := by
  cases hr : r.flaw? with
  | some flaw => simp [put, hr]
  | none =>
    simp only [put, hr, true_and]
    cases (B.allocate r.order listed now (B.ledger.unused draw)).1 with
    | error f => simp [answer]
    | ok l => simp [answer, eq_comm]

/-- How a request for some minutes should be answered by a broker over a registry. -/
structure MinutesSpec (r : Request) (B : Broker CommandStore) (listed : List Exporter)
    (now : Instant) (draw : Nat → String) (reply : Reply) : Prop where
  /-- The request is turned down before it reaches the broker exactly if it asks for no minutes. -/
  turnedDown_iff (error : String) :
    Json.parse? reply.output = some (failureDocument none error) ↔
      r.minutes.toNat = 0 ∧ error = RequestFlaw.zeroMinutes.message
  /-- It is out of range exactly if it asks for some, but for fewer or for more than the settings in
  effect allow. -/
  outOfRange_iff (error : String) :
    Json.parse? reply.output = some (failureDocument (some "DURATION_OUT_OF_RANGE") error) ↔
      1 ≤ r.minutes.toNat ∧ ¬ (B.settings.minMinutes.toNat ≤ r.minutes.toNat ∧
        r.minutes.toNat ≤ B.settings.maxMinutes.toNat) ∧
        error = (Failure.spanOutOfRange (.ofMinutes r.minutes) B.settings.bounds).message
  /-- It succeeds exactly if it asks for some and a lease is granted, with the report of that. -/
  success_iff (data : Json) : Json.parse? reply.output = some (successDocument data) ↔
    1 ≤ r.minutes.toNat ∧ ∃ l,
      (B.allocate r.order listed now (B.ledger.unused draw)).1 = .ok l ∧ data = l.report
  /-- A lease that is granted is recorded for the minutes that were asked for, and reported with
  them. -/
  granted {l : Lease} (h : (B.allocate r.order listed now (B.ledger.unused draw)).1 = .ok l) :
    l ∈ (B.allocate r.order listed now (B.ledger.unused draw)).2.ledger.leases ∧
      l.durationMs.toNat = 60000 * r.minutes.toNat ∧ reportedMinutes l.report = some r.minutes

/-- Under any options, and whatever is found, once a broker is assembled it answers a request with a
selector that has a meaning, and with no name or one that is not blank, by its minutes. Reference:
`CreateLeaseRequest.validate` and `DurationBounds.check`, §14. -/
theorem create_minutes_meet (hB : Assembled o found reg B) {sel : Selector}
    (hblank : Text.allBlank r.selector = false) (hsel : Selector.parse r.selector = .ok sel)
    (hname : r.name.any Text.allBlank = false) (now : Instant) (draw : Nat → String) :
    MinutesSpec r B reg.list now draw
      (.ofAnswer (.create r) ((create r).run o found now draw).1) := by
  have notWatch : create r ≠ .watch := nofun
  have notVersion : create r ≠ .version := nofun
  have answered : Answered o (.create r) found now draw _ := run_answered notWatch
  have flaw := Request.flaw?_eq hblank hname
  have noFlaw : r.flaw? = none ↔ 1 ≤ r.minutes.toNat := by
    rw [flaw, Nat.one_le_iff_ne_zero]
    split <;> simp [*]
  obtain ⟨consistent, hbounds⟩ := hB.ledger_ok
  have outcome := Broker.allocate_outcome consistent r.order reg.list now (B.ledger.unused draw)
  refine ⟨fun error => ?_, fun error => ?_, fun data => ?_, fun h => ?_⟩
  · simp only [answered.noKind, hB.turnedDown_iff, flaw]
    split <;> simp [*]
  · have allowed := Settings.ofMinutes_mem_bounds_iff hB.settings.check r.minutes
    have outOfRange (f : Failure) := outcome.outOfRange_iff hsel (f := f)
    simp only [hbounds, Request.order, Request.span, allowed] at outOfRange
    simp only [answered.kind, hB.fails_iff notVersion, callFails_create_iff, noFlaw]
    constructor
    · rintro ⟨_, f, ⟨rfl, some, hf⟩, hcode, rfl⟩
      obtain ⟨hout, rfl⟩ := (outOfRange f).1 ⟨hf, hcode.symm⟩
      exact ⟨some, hout, rfl⟩
    · rintro ⟨some, hout, rfl⟩
      obtain ⟨hf, hcode⟩ := (outOfRange _).2 ⟨hout, rfl⟩
      exact ⟨_, _, ⟨rfl, some, hf⟩, hcode.symm, rfl⟩
  · rw [parse?_run_eq_success_iff notWatch, hB.run_fst notVersion, put_create_eq_ok_iff, noFlaw]
  · rw [h] at outcome
    obtain ⟨hb, e, rfl⟩ := outcome.booked_of_ok
    rw [hbounds] at hb
    have span : (r.order.booking e).span = .ofMinutes r.minutes := rfl
    obtain ⟨millis, minutes⟩ := Booking.minutes_lease hB.settings.check span hb _
    exact ⟨(outcome.mem_of_ok consistent).1, millis, reportedMinutes_report minutes⟩

/-- A request for the board that is known, for some minutes. -/
def boardRequest (minutes : UInt64) : Request :=
  { selector := "type=board", name := some "nightly", minutes }

/-- An inventory of one board. -/
def boardInventory : Inventory := ⟨[Broker.board "e1" true]⟩

/-- Options that name an inventory file, and leave all else as it is. -/
def boardOptions : Options := { inventory := some "boards.json" }

/-- There is that file, and no other. -/
def boardSurroundings : Surroundings where
  settings := .error .absent
  inventory := .ok (boardInventory.toJson.pretty ++ "\n")
  complaint := ""
  database := .error .malformed

/-- The broker for one command, over process memory and with the default settings. -/
def boardBroker : Broker CommandStore :=
  ⟨{}, .blank ({} : Settings).bounds (.inl MemoryStore.empty)⟩

/-- The reply to such a request. -/
def boardReply (minutes : UInt64) : Reply :=
  .ofAnswer (.create (boardRequest minutes))
    ((create (boardRequest minutes)).run boardOptions boardSurroundings 0 Nat.repr).1

theorem assembled_board :
    Assembled boardOptions boardSurroundings boardInventory.registry boardBroker := by
  have plain : boardInventory.toJson.Plain := by
    refine Json.plain_ofFields (List.forall_mem_singleton.2 (.array ?_))
    refine List.forall_mem_singleton.2 (Json.plain_ofFields ?_)
    simp [Labels.plain_toJson]
  have loaded : Inventory.load "boards.json" boardSurroundings.complaint
      boardSurroundings.inventory = .ok boardInventory := by
    rw [boardSurroundings, Inventory.load, Inventory.parse, plain.parse?_pretty]
    rfl
  exact ⟨.intro (.default rfl) rfl, .file rfl loaded, .memory rfl⟩

/-- One minute is granted with the default settings. More of them than can be counted in seconds are
out of range, and none are turned down. -/
theorem create_minutes_meet_board :
    Assembled boardOptions boardSurroundings boardInventory.registry boardBroker ∧
    Text.allBlank "type=board" = false ∧
    Selector.parse "type=board" = .ok ⟨"type=board", [⟨"type", "board"⟩]⟩ ∧
    (some "nightly").any Text.allBlank = false ∧
    Json.parse? (boardReply 1).output =
      some (successDocument (Service.boardLease "0" 0).report) ∧
    (Service.boardLease "0" 0).durationMs.toNat = 60000 ∧
    reportedMinutes (Service.boardLease "0" 0).report = some 1 ∧
    Json.parse? (boardReply 18446744073709551615).output =
      some (failureDocument (some "DURATION_OUT_OF_RANGE")
        (Failure.spanOutOfRange (.ofSecs 18446744073709551615) ({} : Settings).bounds).message) ∧
    Json.parse? (boardReply 0).output =
      some (failureDocument none "duration_minutes must be greater than 0") := by
  have blank : Text.allBlank "type=board" = false := rfl
  have parsed : Selector.parse "type=board" = .ok ⟨"type=board", [⟨"type", "board"⟩]⟩ := rfl
  have named : (some "nightly").any Text.allBlank = false := rfl
  have meets (minutes : UInt64) : MinutesSpec (boardRequest minutes) boardBroker
      boardInventory.registry.list 0 Nat.repr (boardReply minutes) :=
    create_minutes_meet assembled_board blank parsed named 0 Nat.repr
  have granted : (boardBroker.allocate (boardRequest 1).order boardInventory.registry.list 0
      (boardBroker.ledger.unused Nat.repr)).1 = .ok (Service.boardLease "0" 0) :=
    congrArg Prod.fst (Broker.allocate_board boardBroker (by decide) 0 _)
  obtain ⟨-, millis, minutes⟩ := (meets 1).granted granted
  exact ⟨assembled_board, blank, parsed, named,
    ((meets 1).success_iff _).2 ⟨by decide, _, granted, rfl⟩, millis, minutes,
    ((meets _).outOfRange_iff _).2 ⟨by decide, by decide, rfl⟩,
    ((meets 0).turnedDown_iff _).2 ⟨rfl, rfl⟩⟩

end Command

end LabLease
