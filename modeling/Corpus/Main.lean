/-
Corpus/Main.lean

The program `corpusd`.  It takes up what its command may need from the file system, lets the
command run over that, and puts the changes back.

It starts no programs and reaches no network: an extractor is never found, and requests to a
search engine are lost.
-/
import Corpus.Command.Run
import Corpus.Pressure.Host

namespace Corpus.Main

/-- The variables that the service looks at. -/
def variableNames : List String :=
  ["DATA_DIR", "CONFIG_DIR", "XDG_DATA_HOME", "XDG_CONFIG_HOME", "XDG_CACHE_HOME",
    "MEILI_MASTER_KEY", "RUST_LOG", "HOME"]

/-- The environment. -/
def environment : IO Environment := do
  let found ← variableNames.filterMapM fun name => do
    return (← IO.getEnv name).map (name, ·)
  return ⟨found⟩

/-- The node at a real path.  What is neither a directory nor a file, or may not be read, is
kept as a link that leads nowhere. -/
partial def load (path : String) : IO Node := do
  let here ← IO.FS.realPath path
  if ← here.isDir then
    let entries ← (← here.readDir).toList.mapM fun e => do
      let child := here.toString ++ "/" ++ e.fileName
      let node ←
        try
          let real := (← IO.FS.realPath child).toString
          if real = child then load child else pure (.link (Text.encode real))
        catch _ => pure (.link [])
      return (Text.encode e.fileName, node)
    return .dir entries
  else
    match (← here.metadata).type with
    | .file => return .file (← IO.FS.readBinFile here).data.toList
    | _ => return .link []

/-- A tree with a node put in, unless something stands there, below directories that hold
nothing else. -/
def mount (root : Node) (path : String) (n : Node) : Node :=
  if Disk.exists? { root, workingDir := [] } (.ofText path) then root
  else
    let place := Disk.steps (Text.encode path)
    let parents := ((List.range place.length).drop 1).map place.take
    let root := parents.foldl (fun root p =>
      if (root.at? p).isSome then root else root.put p (.dir [])) root
    root.put place n

/-- A path at which something stands. -/
structure Site where
  /-- The path. -/
  path : String
  /-- The same without links. -/
  real : String
  /-- What stands there is wanted, and not only the directory for something new. -/
  wanted : Bool

/-- The site of an absolute path, or of the nearest directory above it that exists. -/
partial def siteOf (path : Path) (wanted : Bool) : IO Site :=
  try
    return { path := path.shown, real := (← IO.FS.realPath path.shown).toString, wanted }
  catch _ =>
    match path.parent? with
    | some parent => siteOf parent false
    | none => return { path := "/", real := "/", wanted := false }

/-- One real path stands below another. -/
def isBelow (path top : String) : Bool :=
  path ≠ top && (Disk.steps (Text.encode top)).isPrefixOf (Disk.steps (Text.encode path))

/-- A disk with what stands at the given paths, and with the working directory. -/
def diskWith (paths : List Path) : IO Disk := do
  let here := (← IO.currentDir).toString
  let sites ← paths.mapM fun path => siteOf ((Path.ofText here).join path) true
  let wanted := (sites.filter (·.wanted)).map (·.real)
  let tops := wanted.filter fun path => !wanted.any (isBelow path)
  let root ← tops.foldlM (fun root path => return mount root path (← load path)) (.dir [])
  let root := ((← siteOf (.ofText here) false) :: sites).foldl (fun root site =>
    mount (mount root site.real (.dir [])) site.path (.link (Text.encode site.real))) root
  return { root, workingDir := Disk.steps (Text.encode here) }

/-- The disk that a command finds, with all that it may work on.  Its settings are taken up
first, because they name places too. -/
def disk (e : Environment) (words : List String) : IO Disk := do
  match Invocation.read words with
  | .error _ => diskWith []
  | .ok i =>
    let first := e.userSettingsFile :: i.settingsFile.toList ++ i.logFile.toList
    let d ← diskWith first
    match i.action, Settings.load d e i.settingsFile with
    | .ingest _ target _ _, .ok s =>
      diskWith (first ++ [e.dataDir, s.ingest.thumbnailRoot e, s.ingest.stagingRoot e, target])
    | _, _ => return d

/-- Takes away what stands at a path. -/
def remove (path : String) (n : Node) : IO Unit :=
  if n.isDir then IO.FS.removeDirAll path else IO.FS.removeFile path

/-- Puts back at a path what changed there. -/
partial def store (path : String) (old : Option Node) (new : Node) : IO Unit := do
  match old, new with
  | some (.file before), .file after =>
    if before != after then IO.FS.writeBinFile path ⟨after.toArray⟩
  | old, .file content =>
    if let some n := old then remove path n
    IO.FS.writeBinFile path ⟨content.toArray⟩
  | old, .dir entries =>
    let before := (old.map (·.entries)).getD []
    match old with
    | some (.dir _) => pure ()
    | some n =>
      remove path n
      IO.FS.createDirAll path
    | none => IO.FS.createDirAll path
    for (name, n) in before do
      if (new.child? name).isNone then remove (path ++ "/" ++ Text.decodeLossy name) n
    for (name, n) in entries do
      store (path ++ "/" ++ Text.decodeLossy name) (before.lookup name) n
  | _, .link _ => pure ()

/-- The text of a table of the kernel, or nothing. -/
def table (path : String) : IO String := try IO.FS.readFile path catch _ => return ""

/-- What the kernel says. -/
def tables : IO KernelTables :=
  return { memory := ← table "/proc/meminfo", process := ← table "/proc/self/status"
           load := ← table "/proc/loadavg", processors := ← table "/proc/cpuinfo" }

/-- The time, as the kernel stamps its own tables. -/
def now : IO Instant :=
  try
    let t := (← (← IO.FS.realPath "/proc/self/status").metadata).modified
    return ⟨Int.fdiv t.sec 86400, (Int.fmod t.sec 86400).toNat, t.nsec.toNat⟩
  catch _ => return default

/-- A new identifier at random. -/
def newId : IO String := do
  let bytes ← IO.getRandomBytes 16
  let stamped := bytes.data.toList.zipIdx.map fun (b, i) =>
    if i = 6 then (b &&& 0x0F) ||| 0x40
    else if i = 8 then (b &&& 0x3F) ||| 0x80
    else b
  return NameId.hyphenated stamped

end Corpus.Main

open Corpus in
/-- Runs the program. -/
def main (words : List String) : IO UInt32 := do
  let environment ← Main.environment
  let disk ← Main.disk environment words
  let probe := (← Main.tables).probe
  let jobId ← Main.newId
  let host : Host :=
    { environment, disk, programs := ⟨fun _ => none⟩, probe, now := ← Main.now, jobId }
  let ended := host.run (Disconnected.mk .zero) words
  Main.store "" (some disk.root) ended.disk.root
  (← IO.getStdout).putStr ended.output
  let stderr ← IO.getStderr
  if ended.logFile.isNone then stderr.write ⟨(Log.File.content ended.messages).toArray⟩
  stderr.putStr ended.complaint
  return UInt32.ofNat ended.status
