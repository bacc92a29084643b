import LabLease.Command
import LabLease.Command.Level

/-!
# The command line

The levels of the program's command line: the program's own, that of a command, and for `lease`
that of an action. The options of the program are known on every level, and the innermost level
that gives one counts. An option of the program that a level does not give is looked up in the
environment for that level, so a value there must be sound unless every level gives the option.
On a level that leads further the word `help` does so too: the words behind it say, level by level,
what help is asked for.

`CommandLine.read` reads a command line. Words and the values of the environment are texts here, and
so are the paths among them: a path whose bytes are not UTF-8, which the system would allow, cannot
be given.
-/

namespace LabLease

/-- The variables of the environment. -/
abbrev Environment := List (String × String)

namespace CommandLine

/-- The options of the program, each with its variable in the environment. -/
def programOptions : List (OptionSpec × String) :=
  [(⟨"storage", .text⟩, "BENCHLEASE_STORAGE"),
    (⟨"inventory", .path⟩, "BENCHLEASE_INVENTORY"),
    (⟨"config", .path⟩, "BENCHLEASE_CONFIG"),
    (⟨"min-lease-minutes", .number⟩, "BENCHLEASE_MIN_LEASE_MINUTES"),
    (⟨"max-lease-minutes", .number⟩, "BENCHLEASE_MAX_LEASE_MINUTES"),
    (⟨"sweep-interval-secs", .number⟩, "BENCHLEASE_SWEEP_INTERVAL_SECS")]

/-- A level with the options of the program and some of its own. -/
def level (own : List OptionSpec) (branches : List String) (arguments : Nat) : Level :=
  ⟨programOptions.map (·.1) ++ own, branches, arguments, false⟩

/-- The level of the program. -/
def programLevel : Level :=
  { level [] ["config", "exporters", "leases", "lease", "sweep", "version"] 0 with
    showsVersion := true }

/-- The level behind a word, given the words before it. -/
def levelOf : List String → Option Level
  | [] => some programLevel
  | ["config"] | ["version"] => some (level [] [] 0)
  | ["exporters"] =>
    some (level [⟨"selector", .text⟩, ⟨"include-leases", .flag⟩, ⟨"include-online", .truth⟩] [] 0)
  | ["leases"] => some (level [⟨"selector", .text⟩] [] 0)
  | ["lease"] => some (level [] ["create", "show", "release"] 0)
  | ["sweep"] => some (level [⟨"watch", .flag⟩] [] 0)
  | ["lease", "create"] =>
    some (level [⟨"selector", .text⟩, ⟨"name", .text⟩, ⟨"duration-minutes", .number⟩] [] 0)
  | ["lease", "show"] | ["lease", "release"] => some (level [] [] 1)
  | _ => none

/-- Whether help can be given for what words name from a level on. Behind the word for help itself
nothing can be named. -/
def canHelp : List String → List String → Bool
  | _, [] => true
  | path, word :: words =>
    match levelOf path with
    | none => false
    | some l =>
      if word = Level.helpWord then l.leads word && words.isEmpty
      else l.leads word && canHelp (path ++ [word]) words

/-- Reads words from a level on, at most as many levels deep as the first argument says. The result
is the words that led from level to level, and what was read on each. -/
def readLevels : Nat → List String → List String → Instead (List String × List Reading)
  | 0, _, _ => .misuse
  | depth + 1, path, words =>
    (Instead.demand (levelOf path)).andThen fun l =>
      (l.readWords words {}).andThen fun r =>
        match r.next with
        | none => if l.branches.isEmpty then .read (path, [r]) else .misuse
        | some (word, words) =>
          if word = Level.helpWord then if canHelp path words then .help else .misuse
          else
            (readLevels depth (path ++ [word]) words).andThen fun (path, rs) =>
              .read (path, r :: rs)

/-- The environment's values are sound wherever they are looked at. -/
def soundEnvironment (env : Environment) (readings : List Reading) : Bool :=
  programOptions.all fun (opt, key) =>
    match env.lookup key with
    | none => true
    | some value =>
      opt.kind.accepts value || readings.all fun r => r.given.any (·.1 == opt.name)

/-- The value of an option of the program: what the innermost level gives, else what the environment
says. -/
def valueOf (env : Environment) (readings : List Reading) (name : String) : Option String :=
  match readings.reverse.findSome? fun r => r.given.lookup name with
  | some value => some value
  | none =>
    match programOptions.find? (·.1.name == name) with
    | none => none
    | some (_, key) => env.lookup key

/-- The options that the levels and the environment give. -/
def options (env : Environment) (readings : List Reading) : Options where
  storage := (valueOf env readings "storage").getD ({} : Options).storage
  inventory := valueOf env readings "inventory"
  settings := valueOf env readings "config"
  minMinutes := (valueOf env readings "min-lease-minutes").bind readNumber?
  maxMinutes := (valueOf env readings "max-lease-minutes").bind readNumber?
  sweepSecs := (valueOf env readings "sweep-interval-secs").bind readNumber?

/-- The length of a lease, in minutes, if none is given. -/
def defaultMinutes : UInt64 := 30

/-- The command that the words of a path name, from what was read on its last level. -/
def commandOf (path : List String) (r : Reading) : Option Command :=
  let flag (name : String) : Bool := (r.given.lookup name).isSome
  match path with
  | ["config"] => some .summary
  | ["exporters"] =>
    some (.exporters ⟨r.given.lookup "selector", flag "include-leases",
      r.given.lookup "include-online" != some "false"⟩)
  | ["leases"] => some (.leases (r.given.lookup "selector"))
  | ["sweep"] => some (if flag "watch" then .watch else .sweep)
  | ["version"] => some .version
  | ["lease", "create"] =>
    (r.given.lookup "selector").map fun selector =>
      .create ⟨selector, r.given.lookup "name",
        ((r.given.lookup "duration-minutes").bind readNumber?).getD defaultMinutes⟩
  | ["lease", "show"] => r.arguments.head?.map .display
  | ["lease", "release"] => r.arguments.head?.map .release
  | _ => none

/-- Reads a command line. -/
def read (env : Environment) (words : List String) : Instead (Options × Command) :=
  (readLevels 3 [] words).andThen fun (path, readings) =>
    if soundEnvironment env readings then
      (Instead.demand (commandOf path (readings.getLast?.getD {}))).andThen fun c =>
        .read (options env readings, c)
    else .misuse

end CommandLine

end LabLease
