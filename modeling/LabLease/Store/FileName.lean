/-!
# Names and paths of files

A path is a row of bytes in which slashes stand between names. A name is one step; the empty name
and a lone dot are none, and two dots lead upwards.

A `Trail` is what is left of a path when each name and the two dots behind it cancel each other.
Nothing that the names stand for is looked at, so `x/../y` is `y` whether there is an `x` or not
(`Trail.step_up_step`). `Trail.toPath` gives it as a path again.
-/

namespace LabLease

/-- The name or the path of a file, as bytes. -/
abbrev FileName := List UInt8

namespace FileName

/-- How many bytes a name has at most. -/
def longest : Nat := 255

/-- The byte between two names. -/
def slash : UInt8 := '/'.toUInt8

/-- The name that means no step. -/
def here : FileName := ['.'.toUInt8]

/-- The name that means a step upwards. -/
def up : FileName := ['.'.toUInt8, '.'.toUInt8]

/-- The names in a path. -/
def steps (path : FileName) : List FileName := path.splitOn slash

/-- The path does not start from where the program is run. -/
def isAbsolute (path : FileName) : Bool := path.head? == some slash

end FileName

/-- Names that have been taken together. -/
structure Trail where
  /-- It starts at the root, and not where the program is run. -/
  isAbsolute : Bool := false
  /-- How many steps lead upwards. -/
  ups : Nat := 0
  /-- The names from there on, the last one first. -/
  names : List FileName := []
deriving DecidableEq, Repr

namespace Trail

/-- Takes one more name into a trail. Nothing lies above the root. -/
def step (t : Trail) (name : FileName) : Trail :=
  if name = [] ∨ name = FileName.here then t
  else if name = FileName.up then
    match t.names with
    | [] => if t.isAbsolute then t else { t with ups := t.ups + 1 }
    | _ :: names => { t with names := names }
  else { t with names := name :: t.names }

/-- A name and a step upwards behind it cancel each other. -/
theorem step_up_step (t : Trail) {name : FileName} (hn : name ≠ [])
    (hh : name ≠ FileName.here) (hu : name ≠ FileName.up) :
    (t.step name).step FileName.up = t := by
  have h : t.step name = { t with names := name :: t.names } := by simp [step, hn, hh, hu]
  rw [h]
  rfl

/-- Where the names of a path start. -/
def start (path : FileName) : Trail := { isAbsolute := path.isAbsolute }

/-- The names of a path taken together. -/
def ofPath (path : FileName) : Trail := path.steps.foldl step (start path)

/-- The path of a trail. -/
def toPath (t : Trail) : FileName :=
  (if t.isAbsolute then [FileName.slash] else []) ++
    List.intercalate [FileName.slash] (List.replicate t.ups FileName.up ++ t.names.reverse)

/-- The last name, if there is one. -/
def last? (t : Trail) : Option FileName := t.names.head?

/-- The trail without its last name. -/
def parent (t : Trail) : Trail := { t with names := t.names.drop 1 }

/-- How many bytes are in the full path of a trail, if so many are in the path of the directory that
the program is run in. Each step upwards is taken for one byte. -/
def fullLength (t : Trail) (directory : Nat) : Nat :=
  (if t.isAbsolute then 0 else directory - t.ups) +
    t.names.foldl (fun n name => n + (name.length + 1)) 0

end Trail

end LabLease
