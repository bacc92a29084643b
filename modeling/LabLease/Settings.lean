import LabLease.Failure
import LabLease.Json.Reader
import LabLease.Json.Record
import LabLease.Json.Writer

/-!
# Settings

The tunables of a broker: the shortest and the longest lease, and how often overdue leases are
swept. `Settings.check` names the first thing that is wrong with them. Settings that pass it have
bounds that are exactly their minutes, since the longest lease then fits in 64 bits of
milliseconds.

Settings stand in a JSON document, which may leave out any of them: what it does not set has its
default. `Settings.load` reads them from a file.
-/

namespace LabLease

/-- The tunables of a broker. Reference: `BrokerConfig`, §11. -/
structure Settings where
  /-- The shortest lease, in minutes. -/
  minMinutes : UInt64 := 1
  /-- The longest lease, in minutes. -/
  maxMinutes : UInt64 := 1440
  /-- The time between two sweeps, in seconds. -/
  sweepSecs : UInt64 := 5
deriving DecidableEq, Repr, Inhabited

namespace Settings

/-- What is wrong with settings, if anything is: the first flaw in a fixed order. Reference:
`BrokerConfig.validate`, §11. -/
def flaw? (s : Settings) : Option ConfigFlaw :=
  if s.minMinutes = 0 then some .zeroShortest
  else if s.maxMinutes < s.minMinutes then some (.shortestAboveLongest s.minMinutes s.maxMinutes)
  else if UInt64.size ≤ s.maxMinutes.toNat * 60000 then some (.longestTooLarge s.maxMinutes)
  else if s.sweepSecs = 0 then some .zeroSweepInterval
  else none

/-- Refuses settings that have a flaw. -/
def check (s : Settings) : Except Failure Unit :=
  match s.flaw? with
  | some flaw => .error (.invalidConfig flaw)
  | none => .ok ()

/-- The lengths of time that may be granted. Reference: `BrokerConfig.bounds`. -/
def bounds (s : Settings) : SpanRange := ⟨.ofMinutes s.minMinutes, .ofMinutes s.maxMinutes⟩

/-- The time between two sweeps. Reference: `BrokerConfig.sweep_interval`. -/
def sweepInterval (s : Settings) : Span := .ofSecs s.sweepSecs.toNat

/-! ## Settings as a document -/

/-- The names of the settings, in their order. -/
def fieldNames : List String := ["min_lease_minutes", "max_lease_minutes", "sweep_interval_secs"]

/-- Settings as a document. -/
def toJson (s : Settings) : Json :=
  .ofFields
    [("min_lease_minutes", .ofNat s.minMinutes.toNat),
      ("max_lease_minutes", .ofNat s.maxMinutes.toNat),
      ("sweep_interval_secs", .ofNat s.sweepSecs.toNat)]

/-- The settings of a document. -/
def ofJson? (v : Json) : Option Settings := do
  let fs ← v.fields? fieldNames
  let minMinutes ← Json.fieldOr fs "min_lease_minutes" ({} : Settings).minMinutes Json.toWord?
  let maxMinutes ← Json.fieldOr fs "max_lease_minutes" ({} : Settings).maxMinutes Json.toWord?
  let sweepSecs ← Json.fieldOr fs "sweep_interval_secs" ({} : Settings).sweepSecs Json.toWord?
  some ⟨minMinutes, maxMinutes, sweepSecs⟩

/-- Settings from what was read under a path. They are refused if they have a flaw. If the text is
no document of settings, that is told in the words of the reader of documents, `complaint`.
Reference: `BrokerConfig.load`. -/
def load (path complaint : String) : Except FileFault String → Except Failure Settings
  | .error fault => .error (.invalidConfig (.unreadableSettings path fault))
  | .ok text =>
    match (Json.parse? text).bind ofJson? with
    | none => .error (.invalidConfig (.malformedSettings path complaint))
    | some s =>
      match s.check with
      | .error f => .error f
      | .ok () => .ok s

end Settings

end LabLease
