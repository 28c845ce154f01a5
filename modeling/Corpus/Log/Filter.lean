/-
Corpus/Log/Filter.lean

Which messages are logged.  A filter is a list of rules for the parts whose names begin in a
certain way; of the rules that fit a part the one with the longest beginning decides.  The
environment may bring rules of its own, and then the settings are not asked.
-/
import Corpus.Log.Basic
import Corpus.Settings.Places
import Corpus.Text.Blank
import Corpus.Text.Case

namespace Corpus.Log

/-- How much is let through: the rank of the last level, or nothing. -/
abbrev Verbosity := Nat

/-- The verbosity that a word stands for, in small letters. -/
def verbosityOf? (word : String) : Option Verbosity :=
  ["off", "error", "warn", "info", "debug", "trace"].findIdx? (· = word)

/-- The verbosity that the settings and the command line ask for. -/
def verbosityFor (s : DaemonSettings) (raised : Nat) : Verbosity :=
  match raised with
  | 0 => (verbosityOf? (Text.toLower s.logLevel)).getD Level.info.rank
  | 1 => Level.debug.rank
  | _ => Level.trace.rank

/-- A rule for the parts whose names begin in a certain way. -/
structure Rule where
  parts : String := ""
  verbosity : Verbosity
  deriving DecidableEq, Repr

namespace Rule

/-- The verbosity of a rule, as a number or as a word in any letters. -/
def verbosity? (text : String) : Option Verbosity :=
  match text.toList with
  | [c] => if '0' ≤ c && c ≤ '5' then some (c.toNat - 48) else none
  | cs => verbosityOf? (String.ofList (cs.map Char.toLower))

/-- A name of a part may begin so. -/
def isStart (c : Char) : Bool := c.isAlphanum || c == '-' || c == ':' || c == '_' || 128 ≤ c.toNat

/-- Reads a rule: a verbosity, the beginning of names, or both with an equals sign between
them.  Everything is let through where no verbosity is given. -/
def read? (text : String) : Option Rule :=
  let cs := Text.trimChars text.toList
  let parts := cs.takeWhile (· ≠ '=')
  match cs with
  | [] => none
  | c :: _ =>
    if !isStart c || parts.contains '[' then none
    else
      match cs.drop parts.length with
      | [] =>
        match verbosity? (String.ofList parts) with
        | some v => some { verbosity := v }
        | none => some ⟨String.ofList parts, Level.trace.rank⟩
      | [_] => some ⟨String.ofList parts, Level.trace.rank⟩
      | _ :: level => (verbosity? (String.ofList level)).map (⟨String.ofList parts, ·⟩)

/-- The rule is about a part. -/
def fits (r : Rule) (part : String) : Bool := r.parts.toList.isPrefixOf part.toList

end Rule

/-- The rules in force: those of the environment that can be read, or one for all parts. -/
def rulesFor (e : Environment) (s : DaemonSettings) (raised : Nat) : List Rule :=
  let given := ((e.get? "RUST_LOG").getD "").splitOn ","
  match given.filterMap Rule.read? with
  -- rules that cannot be read are dropped, and so the settings may decide after all
  | [] => [{ verbosity := verbosityFor s raised }]
  | rules => rules

/-- The rule that decides on a part: the latest of those with the longest prefix. -/
def decisive? (rules : List Rule) (part : String) : Option Rule :=
  (rules.filter (·.fits part)).foldl (fun best r =>
    match best with
    | some b => if r.parts.length < b.parts.length then some b else some r
    | none => some r) none

/-- A message is let through. -/
def passes (rules : List Rule) (m : Message) : Bool :=
  (decisive? rules m.part).any (m.level.rank ≤ ·.verbosity)

end Corpus.Log
