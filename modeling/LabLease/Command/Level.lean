import LabLease.Text

/-!
# Levels of a command line

A command line is read from left to right, level by level. Each level knows a few options. One is
given at most once a level, as `--name value` or `--name=value`; a flag takes no value. The first
word that is no option leads to a further level, on a level that has any, and is an argument on one
that has none. Behind `--` every word is an argument.

`Level.readWords` reads one level, up to the word that leads further. Instead of a reading there
can be a question for the version, which is answered as soon as it is asked on a level that answers
it, a question for help, and a misuse, which has no details here (`Instead`).
-/

namespace LabLease

/-- What the value of an option has to be. -/
inductive OptionKind
  /-- There is no value. -/
  | flag
  /-- Any text. -/
  | text
  /-- A text that is not empty. -/
  | path
  /-- A number of 64 bits. -/
  | number
  /-- One of the words `true` and `false`. -/
  | truth
deriving DecidableEq, Repr

/-- Reads a number of 64 bits: digits, with an optional plus sign in front. -/
def readNumber? (s : String) : Option UInt64 :=
  match s.toList with
  | '+' :: cs => Text.word? cs
  | cs => Text.word? cs

namespace OptionKind

/-- Whether a text can be the value. -/
def accepts (kind : OptionKind) (value : String) : Bool :=
  match kind with
  | .flag | .text => true
  | .path => value != ""
  | .number => (readNumber? value).isSome
  | .truth => value == "true" || value == "false"

end OptionKind

/-- An option that a level knows. -/
structure OptionSpec where
  /-- Its name, without the hyphens. -/
  name : String
  /-- What its value has to be. -/
  kind : OptionKind
deriving DecidableEq, Repr

/-- A level of the command line. -/
structure Level where
  /-- The options that it knows. -/
  options : List OptionSpec
  /-- The words that lead to a further level. -/
  branches : List String := []
  /-- How many arguments it takes. -/
  arguments : Nat := 0
  /-- Whether it answers with the version when asked to. -/
  showsVersion : Bool := false

/-- What was read on a level. -/
structure Reading where
  /-- The options given, by name. -/
  given : List (String × String) := []
  /-- The arguments, in their order. -/
  arguments : List String := []
  /-- The word that leads further, with the words behind it. -/
  next : Option (String × List String) := none
deriving DecidableEq, Repr

/-- Why no command was read. -/
inductive Instead (α : Type)
  /-- The version was asked for. -/
  | version
  /-- The help text was asked for. -/
  | help
  /-- The words make no command line. -/
  | misuse
  /-- There is one. -/
  | read (value : α)
deriving Repr

namespace Instead

/-- Goes on with what was read. -/
def andThen {α β : Type} (x : Instead α) (f : α → Instead β) : Instead β :=
  match x with
  | .version => .version
  | .help => .help
  | .misuse => .misuse
  | .read a => f a

/-- Goes on with a value, whose lack is a misuse. -/
def demand {α : Type} : Option α → Instead α
  | none => .misuse
  | some a => .read a

end Instead

namespace Level

/-- Divides the text of an option at its first equals sign, if it has one. -/
def divide : List Char → List Char × Option (List Char)
  | [] => ([], none)
  | c :: cs => if c = '=' then ([], some cs) else (c :: (divide cs).1, (divide cs).2)

/-- How a word begins. -/
inductive Shape
  /-- Two hyphens and no more: the end of the options. -/
  | ending
  /-- Two hyphens and a name, perhaps with a value. -/
  | long (name : String) (value : Option String)
  /-- One hyphen and letters. -/
  | short (letters : List Char)
  /-- None of these; a lone hyphen is an ordinary word. -/
  | plain
deriving DecidableEq, Repr

/-- How a word begins. -/
def shape (word : String) : Shape :=
  match word.toList with
  | ['-', '-'] => .ending
  | '-' :: '-' :: cs =>
    .long (String.ofList (divide cs).1) ((divide cs).2.map String.ofList)
  | '-' :: c :: cs => .short (c :: cs)
  | _ => .plain

/-- The word that asks for the help text, on every level that leads further. -/
def helpWord : String := "help"

/-- Whether a word leads further. -/
def leads (l : Level) (word : String) : Bool :=
  decide (word ∈ l.branches) || (!l.branches.isEmpty && word == helpWord)

/-- Gives an option its value, unless the level has one already or the value is unsound. -/
def give (opt : OptionSpec) (value : String) (r : Reading) : Instead Reading :=
  if opt.kind.accepts value && !r.given.any (·.1 == opt.name) then
    .read { r with given := r.given ++ [(opt.name, value)] }
  else .misuse

/-- Takes the remaining words as arguments. -/
def finish (l : Level) (words : List String) (r : Reading) : Instead Reading :=
  if (r.arguments ++ words).length ≤ l.arguments then
    .read { r with arguments := r.arguments ++ words }
  else .misuse

/-- What a cluster of letters asks for: its first letter decides. -/
def cluster (l : Level) : List Char → Instead Reading
  | 'V' :: _ => if l.showsVersion then .version else .misuse
  | 'h' :: _ => .help
  | _ => .misuse

/-- Reads the words of a level, up to the word that leads further. -/
def readWords (l : Level) : List String → Reading → Instead Reading
  | [], r => .read r
  | word :: words, r =>
    match shape word with
    | .ending => l.finish words r
    | .short letters => l.cluster letters
    | .plain =>
      if l.leads word then .read { r with next := some (word, words) }
      else if r.arguments.length < l.arguments then
        l.readWords words { r with arguments := r.arguments ++ [word] }
      else .misuse
    | .long name value =>
      match l.options.find? (·.name == name), value with
      | some opt, some value =>
        if opt.kind = .flag then .misuse
        else (give opt value r).andThen (l.readWords words)
      | some opt, none =>
        if opt.kind = .flag then (give opt "" r).andThen (l.readWords words)
        else
          match words with
          | [] => .misuse
          | value :: words =>
            if shape value = .plain then (give opt value r).andThen (l.readWords words)
            else .misuse
      | none, none =>
        if name = "version" ∧ l.showsVersion then .version
        else if name = "help" then .help
        else .misuse
      | none, some _ => .misuse

end Level

end LabLease
