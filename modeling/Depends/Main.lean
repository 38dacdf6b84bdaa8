import Depends.CommandLine.Run
import Std.Time.DateTime

/-!
The program. It reads the files that a call needs, makes the call, writes the files that have changed and
prints the answer. When changes are watched, it looks for them again and again.
-/
namespace Depends.Program

open Depends.CommandLine

/-- The content that stands for some bytes. -/
def contentOf (data : ByteArray) : Content :=
  match (String.fromUTF8? data).bind Ledger.ofArchive? with
  | some ledger => .database ledger
  | none => .bytes data.toList

/-- A run identifier from sixteen random bytes, in the fourth version of such identifiers. -/
def identifier (random : List UInt8) : String :=
  let marked := random.zipIdx.map fun (byte, i) =>
    if i == 6 then byte % 16 + 64 else if i == 8 then byte % 64 + 128 else byte
  let digits := marked.flatMap fun byte => Text.hex 2 byte.toNat
  let part (start size : Nat) := String.ofList ((digits.drop start).take size)
  Text.join "-" [part 0 8, part 8 4, part 12 4, part 16 4, part 20 12]

/-- The present time, a fresh identifier and the time since a start. -/
def newOccasion (started : Nat) : IO Occasion := do
  let now ← Std.Time.Timestamp.now
  let random ← IO.getRandomBytes 16
  let elapsed := (← IO.monoNanosNow) - started
  return { now := { nanoseconds := now.toNanosecondsSinceUnixEpoch.val }
           runId := identifier random.toList, elapsed }

/-- The values of the variables that override settings. -/
def readEnvironment : IO Environment := do
  let names := Environment.overridable.map fun (group, name) => Environment.variableName group name
  names.filterMapM fun name => return (← IO.getEnv name).map fun value => (name, value)

/-- The kind of what stands at a path, and the second of its last change. -/
def look (path : String) : IO (Option (IO.FS.FileType × Int)) := do
  let here ← IO.currentDir
  try
    let info ← (here / path).metadata
    return some (info.type, info.modified.sec)
  catch _ => return none

/-- The file at a path; a file whose content is not wanted counts as empty. -/
def readFile (path : String) (modified : Int) (wanted : Bool) : IO File := do
  if wanted then
    try return { content := contentOf (← IO.FS.readBinFile path), modified }
    catch _ => return { content := .bytes [], modified }
  else return { content := .bytes [], modified }

/-- Reads what stands at a path, with the folders below that are not passed over. -/
partial def readTree (filter : FileFilter) (recursive : Bool) (path : String) : IO (Option Tree) := do
  match ← look path with
  | some (.file, modified) => return some (.file (← readFile path modified (filter.takesFile path)))
  | some (.dir, _) =>
    let here ← IO.currentDir
    let mut entries := []
    for entry in ← (here / path).readDir do
      let below := Path.append path entry.fileName
      let isFolder := (← look below).any fun found => found.1 == .dir
      if isFolder && (!recursive || filter.skipsFolder below) then
        entries := Tree.insertEntry entry.fileName (.folder []) entries
      else if let some tree ← readTree filter recursive below then
        entries := Tree.insertEntry entry.fileName tree entries
    return some (.folder entries)
  | _ => return none

/-- Adds a single file with the folders around it. -/
def addFile (files : Files) (path : String) : IO Files := do
  let path := Path.absolute files.workingDirectory path
  let mut files := files
  for step in Files.ancestors path do
    match ← look step with
    | some (.dir, _) => files := files.placeFolder step
    | some (.file, modified) => files := files.place step (← readFile step modified (step == path))
    | _ => pure ()
  return files

/-- Adds everything below a root of the scan. -/
def addRoot (filter : FileFilter) (recursive : Bool) (files : Files) (root : String) : IO Files := do
  let root := Path.absolute files.workingDirectory root
  match ← readTree filter recursive root with
  | none => return files
  | some tree => return { files with root := Tree.put tree (Path.elements root) files.root }

/-- The files that settings lead to. -/
def readFiles (settings : Settings) (others : List String) : IO Files := do
  let start := Files.empty (← IO.currentDir).toString
  let files ←
    match settings.scan.filter? with
    | none => pure start
    | some filter => settings.scanPaths.all.foldlM (addRoot filter settings.scan.recursive) start
  (others ++ filePaths settings).foldlM addFile files

/-- The files for a call. -/
def readFor (call : Call) : IO Files := do
  let start := Files.empty (← IO.currentDir).toString
  match Options.parse call.arguments with
  | .error _ => return start
  | .ok o =>
    let first ← o.settingPaths.foldlM addFile start
    match o.settings first (DotEnv.load first call.environment [".env"]) with
    | .error _ => return first
    | .ok settings => readFiles settings o.settingPaths

/-- Writes the files that are not as they were. -/
def writeChanges (before after : Files) : IO Unit := do
  for visit in after.root.walkFrom (fun _ => false) "/" do
    if let .ok (.file file) := after.stat visit.path then
      let unchanged := match before.stat visit.path with
        | .ok (.file old) => old.content == file.content
        | _ => false
      if !unchanged then
        IO.FS.createDirAll (Path.parent visit.path)
        IO.FS.writeBinFile visit.path file.content.data.toByteArray

/-- Prints an answer and the lines of the log. -/
def printAnswer (answer : Answer) (log : List String) : IO Unit := do
  IO.print answer.output
  for line in log do IO.eprintln line
  IO.eprint answer.message

/-- The milliseconds between two looks for changes. -/
def pause (settings : WatchSettings) : Nat :=
  let least := if 0 < settings.rate then (1000 / settings.rate).ceil.toNat else 0
  max 1 (max least (settings.quiet / Duration.millisecond).toNat)

/-- Runs again whenever files have changed. -/
partial def follow (session : Session) : IO Unit := do
  IO.sleep (pause session.settings.watch).toUInt32
  let started ← IO.monoNanosNow
  let files ← readFiles session.settings []
  let changed := session.changes files
  if changed.isEmpty then follow session
  else
    let occasion ← newOccasion started
    let (update, next) := ({ session with files } : Session).rerun occasion changed
    if let some update := update then
      let (answer, next) := showReport next occasion.now update.analysis
      writeChanges files next.files
      printAnswer answer []
      follow next
    else follow next

end Depends.Program

open Depends Depends.CommandLine Depends.Program in
/-- Makes one call with the arguments of the program. -/
def main (arguments : List String) : IO UInt32 := do
  let started ← IO.monoNanosNow
  let environment ← readEnvironment
  let files ← readFor { arguments, environment, occasion := ← newOccasion started }
  let outcome := run { arguments, environment, occasion := ← newOccasion started } files
  writeChanges files outcome.files
  if let some line := outcome.headline then IO.eprintln line
  printAnswer outcome.answer outcome.log
  if let some session := outcome.session then follow session
  return outcome.answer.code.toUInt32
