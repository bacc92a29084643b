/-!
# Flaws of what is given

What can be wrong with a selector text, with settings and with an inventory, each case with the
values that describe it. The wording of a flaw is its `message`.
-/

namespace LabLease

/-- A text in single quotes. -/
def quoted (s : String) : String := "'" ++ s ++ "'"

/-- What is wrong with a selector text. Reference: the reasons of `BrokerError.InvalidSelector`. -/
inductive SelectorFlaw
  /-- A clause has no equals sign. -/
  | missingEquals (clause : String)
  /-- A clause has nothing in front of its equals sign. -/
  | emptyKey (clause : String)
  /-- A flaw in words of its own. -/
  | stated (words : String)
deriving DecidableEq, Repr

/-- A flaw in words. -/
def SelectorFlaw.message : SelectorFlaw → String
  | .missingEquals clause => "clause " ++ quoted clause ++ " is missing '='"
  | .emptyKey clause => "clause " ++ quoted clause ++ " has an empty key"
  | .stated words => words

/-- Why a file has no readable text. -/
inductive FileFault
  /-- There is no file under the path. -/
  | absent
  /-- The path leads to a directory. -/
  | directory
  /-- The path leads through a file as if it were a directory. -/
  | notDirectory
  /-- The path, or a name in it, is longer than the system allows. -/
  | nameTooLong
  /-- The file's bytes are not UTF-8. -/
  | notText
deriving DecidableEq, Repr

/-- A fault in words, with the system's number of it where it has one. -/
def FileFault.message : FileFault → String
  | .absent => "No such file or directory (os error 2)"
  | .directory => "Is a directory (os error 21)"
  | .notDirectory => "Not a directory (os error 20)"
  | .nameTooLong => "File name too long (os error 36)"
  | .notText => "stream did not contain valid UTF-8"

/-- What is wrong with settings or with an inventory. Reference: the texts of
`BrokerError.InvalidConfig`. -/
inductive ConfigFlaw
  /-- The shortest lease has no length. -/
  | zeroShortest
  /-- The shortest lease is longer than the longest. -/
  | shortestAboveLongest (shortest longest : UInt64)
  /-- The longest lease, in milliseconds, does not fit in 64 bits. -/
  | longestTooLarge (longest : UInt64)
  /-- The sweep interval has no length. -/
  | zeroSweepInterval
  /-- A settings file could not be read. -/
  | unreadableSettings (path : String) (fault : FileFault)
  /-- A settings file does not hold settings, with what the reader of documents says of it. -/
  | malformedSettings (path words : String)
  /-- An inventory file could not be read. -/
  | unreadableInventory (path : String) (fault : FileFault)
  /-- A text is not an inventory, with what the reader of documents says of it. -/
  | malformedInventory (words : String)
  /-- An exporter of an inventory has the empty identifier. -/
  | emptyExporterId
  /-- Two exporters of an inventory share an identifier. -/
  | repeatedExporterId (id : String)
  /-- A flaw in words of its own. -/
  | stated (words : String)
deriving DecidableEq, Repr

/-- A flaw in words. -/
def ConfigFlaw.message : ConfigFlaw → String
  | .zeroShortest => "min_lease_minutes must be greater than 0"
  | .shortestAboveLongest shortest longest =>
    "min_lease_minutes (" ++ Nat.repr shortest.toNat ++ ") exceeds max_lease_minutes (" ++
      Nat.repr longest.toNat ++ ")"
  | .longestTooLarge longest =>
    "max_lease_minutes (" ++ Nat.repr longest.toNat ++ ") is too large"
  | .zeroSweepInterval => "sweep_interval_secs must be greater than 0"
  | .unreadableSettings path fault => "cannot read " ++ path ++ ": " ++ fault.message
  | .malformedSettings path words => "cannot parse " ++ path ++ ": " ++ words
  | .unreadableInventory path fault => "cannot read inventory " ++ path ++ ": " ++ fault.message
  | .malformedInventory words => "cannot parse inventory: " ++ words
  | .emptyExporterId => "inventory exporter with empty id"
  | .repeatedExporterId id => "duplicate exporter id " ++ quoted id ++ " in inventory"
  | .stated words => words

end LabLease
