import LabLease.Broker
import LabLease.Text

/-!
# Commands

What can be asked of a broker in one go, and the options under which it is assembled to answer. How
both are written on a command line is the subject of `Command.Line`, what comes of a command that of
`Command.Run`.
-/

namespace LabLease

/-- What is wrong with a request for a lease, whatever the broker's settings are. -/
inductive RequestFlaw
  /-- The selector has no clause. -/
  | blankSelector
  /-- The lease would have no length. -/
  | zeroMinutes
  /-- A name is given and has no visible character. -/
  | blankName
deriving DecidableEq, Repr

/-- A flaw in words. -/
def RequestFlaw.message : RequestFlaw → String
  | .blankSelector =>
    "selector is required for creating a lease (e.g. 'board-type=j784s4evm,enabled=true')"
  | .zeroMinutes => "duration_minutes must be greater than 0"
  | .blankName => "name must not be blank when given"

/-- A request for a lease. Reference: `CreateLeaseRequest`. -/
structure Request where
  /-- The selector text. -/
  selector : String
  /-- A name for the lease. -/
  name : Option String := none
  /-- Its length in minutes. -/
  minutes : UInt64
deriving DecidableEq, Repr

namespace Request

/-- The first flaw of a request, if it has one. Reference: `CreateLeaseRequest.validate`. -/
def flaw? (r : Request) : Option RequestFlaw :=
  if Text.allBlank r.selector then some .blankSelector
  else if r.minutes = 0 then some .zeroMinutes
  else if r.name.any Text.allBlank then some .blankName
  else none

/-- The length of the lease. Reference: `CreateLeaseRequest.duration`. -/
def span (r : Request) : Span := .ofMinutes r.minutes

/-- The order that a request without a flaw amounts to. -/
def order (r : Request) : Order := ⟨r.selector, r.span, r.name⟩

end Request

/-- What can be asked of a broker. Reference: `Commands` and `LeaseAction`. -/
inductive Command
  /-- The settings in effect and a summary. -/
  | summary
  /-- A listing of exporters. -/
  | exporters (query : ExporterQuery)
  /-- A listing of leases. -/
  | leases (selector : Option String)
  /-- A new lease. -/
  | create (request : Request)
  /-- One lease. -/
  | display (id : String)
  /-- The end of a lease. -/
  | release (id : String)
  /-- One sweep. -/
  | sweep
  /-- A sweep every so often, until interrupted. -/
  | watch
  /-- The name and version of the program. -/
  | version
deriving DecidableEq, Repr

/-- How the broker that answers a command is assembled. Reference: `GlobalOpts`, §11. -/
structure Options where
  /-- Where the leases are kept. -/
  storage : String := "memory"
  /-- The path of an inventory file. -/
  inventory : Option String := none
  /-- The path of a settings file. -/
  settings : Option String := none
  /-- The shortest lease in minutes, instead of what the settings say. -/
  minMinutes : Option UInt64 := none
  /-- The longest lease in minutes, instead of what the settings say. -/
  maxMinutes : Option UInt64 := none
  /-- The sweep interval in seconds, instead of what the settings say. -/
  sweepSecs : Option UInt64 := none
deriving DecidableEq, Repr

namespace Options

/-- Settings with what the options replace. -/
def override (o : Options) (s : Settings) : Settings where
  minMinutes := o.minMinutes.getD s.minMinutes
  maxMinutes := o.maxMinutes.getD s.maxMinutes
  sweepSecs := o.sweepSecs.getD s.sweepSecs

/-- The text behind a leading word. -/
def after? (word s : String) : Option String :=
  if word.toList.isPrefixOf s.toList then some (String.ofList (s.toList.drop word.toList.length))
  else none

/-- The path of the database in which leases are kept, if they are kept in one. Any other storage is
process memory. -/
def database? (o : Options) : Option String := after? "sqlite:" o.storage

end Options

end LabLease
