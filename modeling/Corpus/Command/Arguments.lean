/-
Corpus/Command/Arguments.lean

What the words of a command line ask for.

Words are taken one by one.  A command leads to one of its subcommands; options may stand
anywhere behind the command that knows them, and those known to all commands may stand
behind each of them, the innermost counting.  The first word that is out of place ends the
reading, and so does a request for help.
-/
import Corpus.Disk.Path
import Corpus.Job.Basic

namespace Corpus

/-- What is asked for. -/
inductive Action where
  /-- Runs a job over a target to its end. -/
  | ingest (kind : JobKind) (target : Path) (json : Bool) (intervalMs : Nat)
  | showSettings
  | writeTemplate (overwrite : Bool)
  /-- Looks at the pressure on the host once. -/
  | check
  deriving DecidableEq, Repr

/-- Something asked for, and the options known to all commands. -/
structure Invocation where
  settingsFile : Option Path
  logFile : Option Path
  /-- How often more logging was asked for. -/
  verbosity : Nat
  action : Action
  deriving DecidableEq, Repr

/-- A command line that asks for nothing that can be done. -/
inductive Refusal where
  /-- It asks for help. -/
  | help
  | misuse
  deriving DecidableEq, Repr

namespace Invocation

/-- The commands. -/
inductive Verb where
  | top
  | ingest
  | folder
  | archive
  | settings
  | showSettings
  | init
  | check
  deriving DecidableEq, Repr

/-- The subcommand of a command with a given name. -/
def Verb.sub? : Verb → String → Option Verb
  | .top, "ingest" => some .ingest
  | .top, "config" => some .settings
  | .top, "check" => some .check
  | .ingest, "folder" => some .folder
  | .ingest, "archive" => some .archive
  | .settings, "show" => some .showSettings
  | .settings, "init" => some .init
  | _, _ => none

/-- The command must be followed by a subcommand. -/
def Verb.isGroup : Verb → Bool
  | .top | .ingest | .settings => true
  | _ => false

/-- The command works on a target. -/
def Verb.takesTarget : Verb → Bool
  | .folder | .archive => true
  | _ => false

/-- Options that a value follows. -/
inductive Setting where
  | settingsFile
  | logFile
  | interval
  deriving DecidableEq, Repr

/-- Options that stand alone. -/
inductive Switch where
  | verbose
  | json
  | force
  | help
  deriving DecidableEq, Repr

/-- An option. -/
inductive Flag where
  | setting (s : Setting)
  | switch (s : Switch)
  deriving DecidableEq, Repr

/-- The option that a command knows by a name. -/
def Verb.flag? (v : Verb) (name : String) : Option Flag :=
  if name = "config" then some (.setting .settingsFile)
  else if name = "log-file" then some (.setting .logFile)
  else if name = "verbose" then some (.switch .verbose)
  else if name = "help" then some (.switch .help)
  else if name = "json" && v.takesTarget then some (.switch .json)
  else if name = "interval-ms" && v.takesTarget then some (.setting .interval)
  else if name = "force" && v = .init then some (.switch .force)
  else none

/-- The options behind one command. -/
structure Given where
  settingsFile : Option String := none
  logFile : Option String := none
  verbosity : Option Nat := none
  interval : Option Nat := none
  json : Bool := false
  force : Bool := false
  target : Option String := none
  deriving DecidableEq, Repr

/-- Options with those behind an inner command laid over them. -/
def Given.under (outer inner : Given) : Given :=
  { inner with
    settingsFile := inner.settingsFile.or outer.settingsFile
    logFile := inner.logFile.or outer.logFile
    verbosity := inner.verbosity.or outer.verbosity }

/-- What the next word must be. -/
inductive Expected where
  /-- Whatever the command may be followed by. -/
  | anything
  /-- The value of an option. -/
  | value (s : Setting)
  /-- A target, whatever it begins with. -/
  | operand
  /-- The name of a command that help is wanted for. -/
  | topic
  deriving DecidableEq, Repr

/-- How far the reading is. -/
structure Reading where
  verb : Verb := .top
  /-- The options behind the outer commands. -/
  outer : Given := {}
  /-- The options behind the command itself. -/
  given : Given := {}
  expected : Expected := .anything
  deriving DecidableEq, Repr

namespace Reading

/-- The number of milliseconds that a word stands for: at least one, and below `2 ^ 64`. -/
def interval? (word : String) : Option Nat :=
  let digits := match word.toList with
    | '+' :: rest => rest
    | cs => cs
  if digits.isEmpty || !digits.all Char.isDigit then none
  else
    let n := digits.foldl (fun n c => n * 10 + (c.toNat - 48)) 0
    if 1 ≤ n && n < UInt64.size then some n else none

/-- Takes the value of an option, which may be given once and not be empty. -/
def set (r : Reading) (s : Setting) (word : String) : Except Refusal Reading :=
  let g := r.given
  if word.isEmpty then .error .misuse
  else
    match s with
    | .settingsFile =>
      if g.settingsFile.isSome then .error .misuse
      else .ok { r with given := { g with settingsFile := some word }, expected := .anything }
    | .logFile =>
      if g.logFile.isSome then .error .misuse
      else .ok { r with given := { g with logFile := some word }, expected := .anything }
    | .interval =>
      match g.interval, interval? word with
      | none, some n =>
        .ok { r with given := { g with interval := some n }, expected := .anything }
      | _, _ => .error .misuse

/-- Takes an option that stands alone. -/
def turnOn (r : Reading) (s : Switch) : Except Refusal Reading :=
  let g := r.given
  match s with
  | .verbose => .ok { r with given := { g with verbosity := some (g.verbosity.getD 0 + 1) } }
  | .json => if g.json then .error .misuse else .ok { r with given := { g with json := true } }
  | .force => if g.force then .error .misuse else .ok { r with given := { g with force := true } }
  | .help => .error .help

/-- Takes an option by its name, with the value joined to it if there is one. -/
def longOption (r : Reading) (name : String) (joined : Option String) : Except Refusal Reading :=
  match r.verb.flag? name, joined with
  | some (.setting s), some word => r.set s word
  | some (.setting s), none => .ok { r with expected := .value s }
  | some (.switch s), none => r.turnOn s
  | _, _ => .error .misuse

/-- Takes a letter behind a single dash. -/
def letter (r : Reading) (c : Char) : Except Refusal Reading :=
  if c = 'v' then r.turnOn .verbose
  else if c = 'h' then r.turnOn .help
  else .error .misuse

/-- Takes the target. -/
def operand (r : Reading) (word : String) : Except Refusal Reading :=
  if r.verb.takesTarget && r.given.target.isNone && !word.isEmpty then
    .ok { r with given := { r.given with target := some word } }
  else .error .misuse

/-- Enters a subcommand. -/
def enter (r : Reading) (v : Verb) : Reading :=
  { r with verb := v, outer := r.outer.under r.given, given := {} }

/-- Takes a word where anything may stand. -/
def word (r : Reading) (w : String) : Except Refusal Reading :=
  match r.verb.sub? w with
  | some v => .ok (r.enter v)
  | none =>
    if w = "help" && r.verb.isGroup then .ok { r with expected := .topic }
    else
      match w.toList with
      | ['-', '-'] => .ok { r with expected := .operand }
      | '-' :: '-' :: rest =>
        let name := rest.takeWhile (· ≠ '=')
        let joined := match rest.drop name.length with
          | [] => none
          | _ :: value => some (String.ofList value)
        r.longOption (String.ofList name) joined
      | '-' :: c :: rest => (c :: rest).foldlM letter r
      | _ => r.operand w

/-- Takes the next word. -/
def next (r : Reading) (w : String) : Except Refusal Reading :=
  match r.expected with
  | .anything => r.word w
  | .operand => r.operand w
  | .value s =>
    match w.toList with
    | '-' :: _ :: _ => .error .misuse
    | _ => r.set s w
  | .topic =>
    match r.verb.sub? w with
    | some v => .ok (r.enter v)
    | none => if w = "help" && r.verb.isGroup then .ok r else .error .misuse

/-- What a command with its options asks for. -/
def action? (v : Verb) (g : Given) : Option Action :=
  let ingest (kind : JobKind) :=
    g.target.map fun t => .ingest kind (.ofText t) g.json (g.interval.getD 1000)
  match v with
  | .folder => ingest .folderSync
  | .archive => ingest .archiveIndex
  | .showSettings => some .showSettings
  | .init => some (.writeTemplate g.force)
  | .check => some .check
  | .top | .ingest | .settings => none

/-- What is asked for when no word is left. -/
def finish (r : Reading) : Except Refusal Invocation :=
  let g := r.outer.under r.given
  match r.expected, action? r.verb g with
  | .topic, _ => .error .help
  | .value _, _ => .error .misuse
  | _, none => .error .misuse
  | _, some action =>
    .ok
      { settingsFile := g.settingsFile.map .ofText
        logFile := g.logFile.map .ofText
        verbosity := g.verbosity.getD 0
        action }

end Reading

/-- Reads a command line without the name of the program. -/
def read (words : List String) : Except Refusal Invocation := do
  (← words.foldlM Reading.next {}).finish

end Invocation

end Corpus
