import LabLease.Command.Folder
import LabLease.Store.TableFile
import LabLease.Watch
import Std.Time.DateTime.Timestamp

/-!
# The program

The outer layer of the command line: it reads the environment and the files that the options name,
looks at the clock, draws random identifiers, prints the reply, and writes the database back.
What comes of a command is decided by `Command.run`. A watch sweeps again after every interval until
the program is interrupted.
-/

namespace LabLease.Program

/-- The fault behind an error of the operating system, by its number, which may be negated. -/
def faultOf (code : UInt32) : FileFault :=
  if code = 21 ∨ 0 - code = 21 then .directory
  else if code = 20 ∨ 0 - code = 20 then .notDirectory
  else if code = 36 ∨ 0 - code = 36 then .nameTooLong
  else .absent

/-- The number of an error that says that a file is not what was expected, or a name not one; 0 for
any other. -/
def codeOf : IO.Error → UInt32
  | .inappropriateType _ code _ | .invalidArgument _ code _ => code
  | _ => 0

/-- Reads a file. -/
def readFile (path : String) : IO (Except FileFault FileContent) := do
  try
    let bytes ← IO.FS.readBinFile path
    return .ok (FileContent.ofFile bytes)
  catch e => return .error (faultOf (codeOf e))

/-- Reads a file as text. -/
def readText (path : Option String) : IO (Except FileFault String) := do
  match path with
  | none => return .error .absent
  | some path => return (← readFile path).bind FileContent.readText

/-- There is a file or a directory under a path. -/
def isThere (path : String) : IO Bool := do
  match ← readFile path with
  | .ok _ | .error .directory => return true
  | .error _ => return false

/-- Makes an empty file, if there is none; says whether there is one now. -/
def touch (path : String) : IO Bool := do
  try
    let _ ← IO.FS.Handle.mk path .append
    return true
  catch _ => return false

/-- A text as which the system knows a path. -/
def textOf? (path : FileName) : Option String := String.fromUTF8? ⟨path.toArray⟩

/-- The file under a path, if there is one. -/
def find? (path : FileName) : IO (Option FileContent) := do
  match textOf? path with
  | none => return none
  | some path => return (← readFile path).toOption

/-- The files of the database under a path, of which the content of its own file is given. -/
def filesAt (path : Trail) (main : Option FileContent) : IO DatabaseFiles := do
  return {
    main := main
    journal := ← find? (path.beside .journal).toPath
    log := ← find? (path.beside .log).toPath
    index := ← find? (path.beside .index).toPath
    lock := ← find? (path.beside .lock).toPath }

/-- Puts a file, or nothing, in place of what was under a path. -/
def put (path : Trail) (before after : Option FileContent) : IO Unit := do
  match textOf? path.toPath with
  | none => return
  | some path =>
    if after = before then return
    try
      match after with
      | none => IO.FS.removeFile path
      | some content => IO.FS.writeBinFile path content.toFile
    catch _ => return

/-- Puts the files of a database in place of those that were under its path. -/
def putFiles (path : Trail) (before after : DatabaseFiles) : IO Unit := do
  put path before.main after.main
  put (path.beside .journal) before.journal after.journal
  put (path.beside .log) before.log after.log
  put (path.beside .index) before.index after.index

/-- A database that was found where a text says. -/
structure Found where
  /-- Where the text says it is. -/
  location : Location
  /-- The path of its file. -/
  path : Trail
  /-- The text. -/
  label : String
  /-- Its files. -/
  files : DatabaseFiles

/-- The store and the session that come of opening a database. -/
def Found.opened (found : Found) : Except BackendFault TableStore × Session :=
  found.location.openFiles found.label (found.path.last?.getD []) found.files

/-- Finds the file of a database, and makes it if it is not there and may be made. -/
def findFile (l : Location) (label : String) : IO (Except BackendFault Found) := do
  let path := Trail.ofPath l.path
  if let some model := l.model? then
    unless ← (textOf? model).elim (pure false) isThere do return .error .noModel
  match path.last?, textOf? path.toPath with
  | some _, some name =>
    match ← readFile name with
    | .ok content => return .ok ⟨l, path, label, ← filesAt path (some content)⟩
    | .error .absent =>
      if l.access = .create then
        unless ← touch name do return .error (.cannotOpen label)
      return .ok ⟨l, path, label,
        ← filesAt path (if l.access = .create then some .empty else none)⟩
    | .error fault => return .error (l.faultAt label (fault == .directory))
  | none, _ => return .error (l.faultAt label !path.isAbsolute)
  | _, _ => return .error (.cannotOpen label)

/-- Finds the database that a text names, if it is in a file. -/
def findDatabase (text : String) : IO (Except BackendFault (Option Found)) := do
  match Location.ofText text with
  | .error fault => return .error fault
  | .ok l => if l.isTransient then return .ok none else return (← findFile l text).map some

/-- Opens the database that a text names. -/
def openDatabase (text : String) (found : Except BackendFault (Option Found)) :
    Except BackendFault TableStore :=
  match found with
  | .error fault => .error fault
  | .ok none => (Location.ofText text).bind (·.openTransient text)
  | .ok (some found) => found.opened.1

/-- Writes a database back. -/
def writeDatabase (found : Except BackendFault (Option Found))
    (left : Option (Except BackendFault TableStore)) : IO Unit := do
  match found, left with
  | .ok (some found), some left =>
    putFiles found.path found.files (found.location.leave found.opened.2 left)
  | _, _ => return

/-- The clock's reading. -/
def clock : IO Instant := do
  let t ← Std.Time.Timestamp.now
  return clamp64 t.toMillisecondsSinceUnixEpoch.val.toNat

/-- A sequence of identifiers from a random place on. -/
def randomDraw : IO (Nat → String) := do
  let bytes ← IO.getRandomBytes 12
  let start := bytes.foldl (fun n b => n * 256 + b.toNat) 0
  return fun n => Identifier.ofNumber (start + n)

/-- The variables that the program looks at. -/
def environment : IO Environment := do
  CommandLine.programOptions.filterMapM fun (_, key) => do
    return (← IO.getEnv key).map fun value => (key, value)

/-- What is said of a text that is no document of the kind that is asked for. -/
def complaint : String := "unexpected text"

/-- Reads the files that the options name. The database is not among them. -/
def documents (o : Options) : IO Surroundings :=
  return {
    settings := ← readText o.settings
    inventory := ← readText o.inventory
    complaint := complaint
    database := .ok default }

/-- Reads what the options name. The database is left alone if a file in front of it is at fault. -/
def survey (o : Options) : IO (Surroundings × Except BackendFault (Option Found)) := do
  let found ← documents o
  match o.database?, Command.settings o found, Command.registry o found with
  | some text, .ok _, .ok _ =>
    let database ← findDatabase text
    return ({ found with database := openDatabase text database }, database)
  | _, _, _ => return (found, .ok none)

/-- Runs a command once. -/
def runOnce (o : Options) (c : Command) : IO Reply := do
  let (surroundings, found) ← survey o
  let (answer, left) := c.run o surroundings (← clock) (← randomDraw)
  writeDatabase found left
  return .ofAnswer c answer

/-- The milliseconds between two sweeps of a watch. -/
def pause (o : Options) : IO UInt32 := do
  match Command.settings o (← documents o) with
  | .ok s => return UInt32.ofNat (min (Watch.start s.sweepInterval).period (UInt32.size - 1))
  | .error _ => return 1000

/-- Sweeps again after every interval, for as long as sweeping succeeds. -/
partial def watch (o : Options) : IO Reply := do
  IO.sleep (← pause o)
  let reply ← runOnce o .watch
  if reply.status = 0 then watch o else return reply

/-- Runs a command line. -/
def run (words : List String) : IO Reply := do
  match CommandLine.read (← environment) words with
  | .version => return .version
  | .help => return .help
  | .misuse => return .misuse
  | .read (o, c) =>
    if c = .version then return .ofAnswer c (.ok (reportVersion programName programVersion))
    let reply ← runOnce o c
    if c = .watch ∧ reply.status = 0 then watch o else return reply

end LabLease.Program

/-- Runs the command line and prints the reply. -/
def main (words : List String) : IO UInt32 := do
  let reply ← LabLease.Program.run words
  IO.print reply.output
  return reply.status.toUInt32
