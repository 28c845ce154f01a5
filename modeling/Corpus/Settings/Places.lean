/-
Corpus/Settings/Places.lean

Where the service keeps things on disk.  The data directory holds thumbnails for good, the
cache directory holds what a job needs while it runs, and the configuration directory
holds the user's settings file.  The environment decides, and settings override it.
-/
import Corpus.Settings.Basic
import Corpus.Disk.Path

namespace Corpus

/-- The variables of the environment. -/
structure Environment where
  values : List (String × String)

namespace Environment

/-- The value of a variable. -/
def get? (e : Environment) (name : String) : Option String := e.values.lookup name

/-- The value of a variable that is set and not empty. -/
def filled? (e : Environment) (name : String) : Option String :=
  (e.get? name).filter fun v => !v.isEmpty

/-- The name of the service among the directories of others. -/
def serviceDir : Path := .ofText "corpusd"

/-- A directory under the home directory. -/
def underHome (e : Environment) (rest : String) : Option Path :=
  (e.filled? "HOME").map fun home => (Path.ofText home).join (.ofText rest)

/-- A base directory: the override as it stands, else the service's directory under the one
that `xdg` names, under the platform's, or under the working directory. -/
def resolve (e : Environment) (override : Option String) (xdg : String)
    (platform : Option Path) : Path :=
  match override.bind e.get?, e.get? xdg with
  | some dir, _ => .ofText dir
  | none, some base => (Path.ofText base).join serviceDir
  | none, none => (platform.getD (.ofText ".")).join serviceDir

/-- What is served for good. -/
def dataDir (e : Environment) : Path :=
  e.resolve (some "DATA_DIR") "XDG_DATA_HOME" (e.underHome ".local/share")

/-- What the user has set. -/
def configDir (e : Environment) : Path :=
  e.resolve (some "CONFIG_DIR") "XDG_CONFIG_HOME" (e.underHome ".config")

/-- What no job leaves behind. -/
def cacheDir (e : Environment) : Path :=
  e.resolve none "XDG_CACHE_HOME" (e.underHome ".cache")

/-- The user's settings file. -/
def userSettingsFile (e : Environment) : Path := e.configDir.join (.ofText "config.toml")

end Environment

/-- The directory of adopted thumbnails. -/
def IngestSettings.thumbnailRoot (s : IngestSettings) (e : Environment) : Path :=
  match s.thumbnailDir with
  | some dir => .ofText dir
  | none => e.dataDir.join (.ofText "thumbnails")

/-- The directory under which each job has its own for files in passing. -/
def IngestSettings.stagingRoot (s : IngestSettings) (e : Environment) : Path :=
  match s.stagingDir with
  | some dir => .ofText dir
  | none => e.cacheDir.join (.ofText "staging")

/-- The key of the search engine: the setting if it is filled, else the environment's. -/
def EngineSettings.resolvedKey (s : EngineSettings) (e : Environment) : Option String :=
  match s.apiKey.filter fun k => !k.isEmpty with
  | some key => some key
  | none => e.filled? "MEILI_MASTER_KEY"

end Corpus
