import LabLease.Command.Run
import LabLease.Proofs.Json.Reading

/-!
# What is printed in answer to a command

Every report is a plain value (`Command.run_plain`), so the line that is printed for it is read as
that value and nothing else. A command that is answered prints one document: that of a success
(`Reply.parse?_ofAnswer_ok`) or that of a failure (`Reply.parse?_ofAnswer_error`).
-/

namespace LabLease

open Json (Plain plain_ofFields)

/-! ## The two documents -/

/-- The document of a success. -/
def successDocument (data : Json) : Json := .ofFields [("success", .bool true), ("data", data)]

/-- The document of a failure, with its kind if it has one. -/
def failureDocument (kind : Option String) (error : String) : Json :=
  match kind with
  | none => .ofFields [("success", .bool false), ("error", .ofText error)]
  | some kind =>
    .ofFields [("success", .bool false), ("kind", .ofText kind), ("error", .ofText error)]

theorem successDocument_ne_failureDocument (data : Json) (kind : Option String) (error : String) :
    successDocument data ≠ failureDocument kind error := by
  cases kind <;> simp [successDocument, failureDocument, Json.ofFields]

theorem successDocument_inj {data data' : Json} :
    successDocument data = successDocument data' ↔ data = data' := by
  simp [successDocument, Json.ofFields]

/-- Failures whose kinds or errors differ have different documents. -/
theorem failureDocument_inj {kind kind' : Option String} {error error' : String} :
    failureDocument kind error = failureDocument kind' error' ↔ kind = kind' ∧ error = error' := by
  cases kind <;> cases kind' <;> simp [failureDocument, Json.ofFields, Json.ofText]

theorem toJson_ofData (data : Json) : (Envelope.ofData data).toJson = successDocument data := rfl

theorem toJson_ofRefusal (r : Refusal) :
    (Envelope.ofRefusal r).toJson = failureDocument r.code? r.message := by
  cases r <;> rfl

/-! ## Reports are plain -/

theorem Lease.plain_nameField (key : String) (name : Option String) :
    ∀ f ∈ nameField key name, Plain f.2 := by
  cases name <;> simp [nameField]

theorem Envelope.plain_member (key : String) {v : Option Json} (h : ∀ w ∈ v, Plain w) :
    ∀ f ∈ member key v, Plain f.2 := by
  cases v with
  | none => exact fun _ hf => nomatch hf
  | some v => exact List.forall_mem_singleton.2 (h v rfl)

theorem plain_successDocument {data : Json} (h : Plain data) : Plain (successDocument data) :=
  plain_ofFields (by simpa using h)

theorem plain_failureDocument (kind : Option String) (error : String) :
    Plain (failureDocument kind error) := by
  cases kind <;> exact plain_ofFields (by simp)

theorem Lease.plain_report (l : Lease) : Plain l.report := by
  refine plain_ofFields ?_
  simp only [List.forall_mem_append]
  exact ⟨⟨by simp, plain_nameField _ _⟩, by simp⟩

theorem Lease.plain_toJson (l : Lease) : Plain l.toJson := by
  refine plain_ofFields ?_
  simp only [List.forall_mem_append]
  exact ⟨⟨by simp, plain_nameField _ _⟩, by simp⟩

theorem Labels.plain_toJson (labels : Labels) : Plain (toJson labels) := by
  refine plain_ofFields fun f hf => ?_
  obtain ⟨entry, -, rfl⟩ := List.mem_map.1 hf
  exact .text _

theorem Settings.plain_toJson (s : Settings) : Plain s.toJson := plain_ofFields (by simp)

theorem ExporterInfo.plain_toJson (e : ExporterInfo) : Plain e.toJson := by
  refine plain_ofFields ?_
  simp only [List.forall_mem_append]
  refine ⟨⟨?_, Envelope.plain_member _ ?_⟩, Envelope.plain_member _ ?_⟩
  · simp [Labels.plain_toJson]
  · intro v hv
    obtain ⟨online, -, rfl⟩ := Option.map_eq_some_iff.1 hv
    exact .bool online
  · intro v hv
    obtain ⟨l, -, rfl⟩ := Option.map_eq_some_iff.1 hv
    exact l.plain_toJson

theorem BrokerInfo.plain_toJson (b : BrokerInfo) : Plain b.toJson :=
  plain_ofFields (by simp [Settings.plain_toJson])

theorem plain_reportLeases (leases : List Lease) : Plain (reportLeases leases) :=
  .array (by simp [Lease.plain_report])

theorem plain_reportExpired (expired : Nat) : Plain (reportExpired expired) :=
  plain_ofFields (by simp)

theorem plain_reportVersion (name version : String) : Plain (reportVersion name version) :=
  plain_ofFields (by simp)

namespace Command

variable {o : Options} {c : Command} {found : Surroundings} {now : Instant} {draw : Nat → String}

theorem answer_plain {α : Type} {report : α → Json} (h : ∀ a, Plain (report a))
    {answered : Except Failure α} {data : Json} (ha : answer report answered = .ok data) :
    Plain data := by
  cases answered with
  | error f => cases ha
  | ok a => cases ha; exact h a

/-- Whatever is put to a broker, what it gives is plain. -/
theorem put_plain {B : Broker CommandStore} {listed : List Exporter} {data : Json}
    (h : (c.put B listed now draw).1 = .ok data) : Plain data := by
  cases c with
  | summary => cases h; exact BrokerInfo.plain_toJson _
  | exporters q => exact answer_plain (fun infos => .array (by simp [ExporterInfo.plain_toJson])) h
  | leases selector => exact answer_plain plain_reportLeases h
  | create r =>
    rw [put] at h
    split at h
    · cases h
    · exact answer_plain Lease.plain_report h
  | display id => exact answer_plain Lease.plain_report h
  | release id => exact answer_plain Lease.plain_report h
  | sweep | watch => cases h; exact plain_reportExpired _
  | version => cases h; exact plain_reportVersion _ _

/-- What a command gives is plain. -/
theorem run_plain {data : Json} (h : (c.run o found now draw).1 = .ok data) : Plain data := by
  rw [run] at h
  split at h
  · cases h; exact plain_reportVersion _ _
  · split at h
    · cases h
    · cases h
    · split at h
      · cases h
      · split at h
        · cases h
        · exact put_plain h

end Command

namespace Reply

variable {c : Command}

/-- The reply to a command that succeeds is the document of its success. -/
theorem parse?_ofAnswer_ok (hc : c ≠ .watch) {data : Json} (h : Plain data) :
    Json.parse? (ofAnswer c (.ok data)).output = some (successDocument data) := by
  rw [ofAnswer, if_neg hc, toJson_ofData]
  exact (plain_successDocument h).parse?_pretty

/-- The reply to a command that fails is the document of its failure. -/
theorem parse?_ofAnswer_error (r : Refusal) :
    Json.parse? (ofAnswer c (.error r)).output = some (failureDocument r.code? r.message) := by
  rw [ofAnswer, toJson_ofRefusal]
  exact (plain_failureDocument _ _).parse?_pretty

end Reply

end LabLease
