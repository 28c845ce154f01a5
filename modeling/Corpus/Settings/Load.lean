/-
Corpus/Settings/Load.lean

Which settings are in force: those of the file that the user names, else those of the file
in the working directory, else those of the user's own file, else the defaults.  A file
that is missing is passed over unless the user names it; a bad one never is.
-/
import Corpus.Disk.Basic
import Corpus.Settings.File
import Corpus.Settings.Places

namespace Corpus.Settings

/-- The settings file in the working directory. -/
def localFile : Path := .ofText "corpusd.toml"

/-- The file that settings are read from, if there is one. -/
def sourceFile? (d : Disk) (e : Environment) (explicit : Option Path) : Option Path :=
  match explicit with
  | some path => some path
  | none =>
    if d.exists? localFile then some localFile
    else if d.exists? e.userSettingsFile then some e.userSettingsFile
    else none

/-- The settings in a file. -/
def ofFile (d : Disk) (path : Path) : Except LoadError Settings :=
  match d.read path with
  | .ok content => ofBytes path content
  | .error fault => .error (.unreadable path fault.text)

/-- The settings in force. -/
def load (d : Disk) (e : Environment) (explicit : Option Path) : Except LoadError Settings :=
  match sourceFile? d e explicit with
  | some path => ofFile d path
  | none => .ok {}

end Corpus.Settings
