import LabLease.Command.Line
import LabLease.Command.Run
import LabLease.Store.Opening

/-!
# The folder that the program is run in

A `Folder` stands for the directory that the program is run in: its files, some of which are
databases. It has no folders below it. Of what lies outside only directories are known, and a device
that reads as an empty file.

A path is followed in two ways. The system goes from name to name and needs a directory for every
step (`Folder.place`). A database first takes the names together, so that a name and `..` behind it
cancel each other, and only looks whether each path on the way could lead somewhere
(`Folder.databasePath`).

`Folder.find?_put` says that what is put under a path is found there.
-/

namespace LabLease

/-- A directory with files. -/
structure Folder where
  /-- The files by their paths. Of several with one path the first counts. -/
  files : List (Trail × FileContent) := []
  /-- How many bytes the directory's own path has. -/
  pathLength : Nat := 24
  /-- What the reader of documents says of a text in a file that it refuses. -/
  complaint : String := ""
deriving DecidableEq, Repr, Inhabited

/-- Where a path leads. -/
inductive Place
  /-- To a directory. -/
  | directory
  /-- To a name in a directory, whether or not there is a file of that name. -/
  | file (path : Trail)
  /-- Through a file as if it were a directory. -/
  | throughFile
  /-- Through or to a name that is too long. -/
  | tooLong
  /-- To nothing. -/
  | nowhere
deriving DecidableEq, Repr

namespace Folder

/-- The path of a file in the folder. -/
def pathOf (name : String) : Trail := { names := [Text.bytes name.toList] }

/-- A folder with the given files. -/
def ofList (files : List (String × FileContent)) : Folder where
  files := files.map fun (name, content) => (pathOf name, content)

/-- The directories right below the root. -/
def systemDirectories : List String :=
  ["bin", "boot", "dev", "etc", "home", "lib", "media", "mnt", "opt", "proc", "root", "run", "sbin",
    "srv", "sys", "tmp", "usr", "var"]

/-- The device that reads as an empty file. -/
def nullDevice : Trail :=
  { isAbsolute := true, names := ["null", "dev"].map (Text.bytes ·.toList) }

/-- Whether there is a directory under a path. -/
def isDirectory (path : Trail) : Bool :=
  match path.names with
  | [] => true
  | [name] => path.isAbsolute && systemDirectories.any (Text.bytes ·.toList == name)
  | _ => false

/-- The file under a path. -/
def find? (d : Folder) (path : Trail) : Option FileContent :=
  if path = nullDevice then some .empty else d.files.lookup path

/-- Puts a file, or nothing, in place of what was under a path. -/
def put (d : Folder) (path : Trail) (content : Option FileContent) : Folder :=
  { d with files := (content.map (path, ·)).toList ++ d.files.filter (·.1 != path) }

/-- What was put under a path is found there. -/
theorem find?_put {path : Trail} (h : path ≠ nullDevice) (d : Folder)
    (content : Option FileContent) : (d.put path content).find? path = content := by
  have hf : (d.files.filter (·.1 != path)).lookup path = none := by
    rw [List.lookup_eq_none_iff]
    intro file hm
    have hne := (List.mem_filter.1 hm).2
    rw [bne_iff_ne] at hne ⊢
    exact hne.symm
  cases content <;> simp [find?, put, h, hf]

/-! ## Following a path from name to name -/

/-- Follows names from a directory on. -/
def follow (d : Folder) (directory : Trail) : List FileName → Place
  | [] => .directory
  | name :: names =>
    let path := directory.step name
    if FileName.longest < name.length then .tooLong
    else if isDirectory path then d.follow path names
    else if names = [] then .file path
    else if (d.find? path).isSome then .throughFile
    else .nowhere

/-- How many bytes a path has at most. -/
def longestPath : Nat := 4095

/-- Where a path leads. -/
def place (d : Folder) (path : FileName) : Place :=
  if path = [] then .nowhere
  else if longestPath < path.length then .tooLong
  else d.follow (Trail.start path) path.steps

/-- There is something where a path leads. -/
def isThere (d : Folder) (path : FileName) : Bool :=
  match d.place path with
  | .directory => true
  | .file path => (d.find? path).isSome
  | _ => false

/-- Reads the file under a path as text. -/
def readText (d : Folder) (path : String) : Except FileFault String :=
  match d.place (Text.bytes path.toList) with
  | .directory => .error .directory
  | .throughFile => .error .notDirectory
  | .tooLong => .error .nameTooLong
  | .nowhere => .error .absent
  | .file path =>
    match d.find? path with
    | none => .error .absent
    | some content => content.readText

/-! ## Following the path of a database -/

/-- How many bytes the full path of a database has at most. -/
def longestFullPath : Nat := 511

/-- Whether a path, of which this holds without its last name, could lead somewhere: its last name
can be one, and does not stand behind the name of a file. -/
def admits (d : Folder) (path : Trail) : Bool :=
  decide (path.fullLength d.pathLength ≤ longestFullPath) &&
    match path.last? with
    | none => true
    | some name =>
      if isDirectory path.parent then decide (name.length ≤ FileName.longest)
      else (d.find? path.parent).isNone

/-- Takes one more name into a path, if that could lead somewhere. -/
def extend (d : Folder) (path : Trail) (name : FileName) : Option Trail :=
  if d.admits (path.step name) then some (path.step name) else none

/-- The path of a database with its names taken together, if it could lead somewhere. The root is
not looked at. -/
def databasePath (d : Folder) (path : FileName) : Option Trail :=
  (path.steps.foldlM d.extend (Trail.start path)).filter fun path =>
    !(path.isAbsolute && path.names == [])

/-- The files of the database under a path. -/
def filesAt (d : Folder) (path : Trail) : DatabaseFiles where
  main := d.find? path
  journal := d.find? (path.beside .journal)
  log := d.find? (path.beside .log)
  index := d.find? (path.beside .index)
  lock := d.find? (path.beside .lock)

/-- Puts the files of a database in place of those that were under its path. -/
def putFiles (d : Folder) (path : Trail) (f : DatabaseFiles) : Folder :=
  ((((d.put path f.main).put (path.beside .journal) f.journal).put (path.beside .log) f.log).put
    (path.beside .index) f.index).put (path.beside .lock) f.lock

/-- The path of the file of a database, if it has one, or why there can be none. -/
def pathOfDatabase (d : Folder) (l : Location) (label : String) :
    Except BackendFault Trail :=
  match d.databasePath l.path with
  | none => .error (.cannotOpen label)
  | some path =>
    if l.model?.any (!d.isThere ·) then .error .noModel
    else if isDirectory path then .error (l.faultAt label true)
    else if isDirectory path.parent then .ok path
    else .error (l.faultAt label false)

/-- Opens the database that a text names. -/
def openTable (d : Folder) (text : String) : Except BackendFault TableStore := do
  let l ← Location.ofText text
  if l.isTransient then l.openTransient text
  else
    let path ← d.pathOfDatabase l text
    (l.openFiles text (path.last?.getD []) (d.filesAt path)).1

/-- The folder after the database that a text names was opened, or could not be, and then left as a
store. -/
def afterOpening (d : Folder) (text : String) (left : Except BackendFault TableStore) : Folder :=
  match Location.ofText text with
  | .error _ => d
  | .ok l =>
    if l.isTransient then d
    else
      match d.pathOfDatabase l text with
      | .error _ => d
      | .ok path =>
        let session := (l.openFiles text (path.last?.getD []) (d.filesAt path)).2
        d.putFiles path (l.leave session left)

/-! ## Running the program -/

/-- What a command finds in the folder. -/
def surroundings (d : Folder) (o : Options) : Surroundings where
  settings := d.readText (o.settings.getD "")
  inventory := d.readText (o.inventory.getD "")
  complaint := d.complaint
  database := d.openTable (o.database?.getD "")

/-- Runs a command in the folder. -/
def run (d : Folder) (o : Options) (c : Command) (now : Instant) (draw : Nat → String) :
    Except Refusal Json × Folder :=
  let (answer, left) := c.run o (d.surroundings o) now draw
  match o.database?, left with
  | some text, some opened => (answer, d.afterOpening text opened)
  | _, _ => (answer, d)

/-- Runs a command line in the folder. A watch is interrupted after its first sweep. -/
def rehearse (d : Folder) (env : Environment) (words : List String) (now : Instant)
    (draw : Nat → String) : Reply × Folder :=
  match CommandLine.read env words with
  | .version => (.version, d)
  | .help => (.help, d)
  | .misuse => (.misuse, d)
  | .read (o, c) => (.ofAnswer c (d.run o c now draw).1, (d.run o c now draw).2)

end Folder

end LabLease
