import StoryCatalog.CommandLine.Run
import StoryCatalog.Timestamp.Clock
import Std.Time.DateTime

/-!
# The program

Reads the files below the working directory, runs what the arguments ask for, writes the files that
have changed and prints the report. Every request goes unanswered, because the program has no
network.
-/

namespace StoryCatalog.Program

/-- The directories whose files are not read. -/
def unread : List String := [".git", "node_modules"]

/-- The nodes of an entry of a directory under its names, and of all that stands below it. -/
partial def nodesOf (directory : List Text) (entry : IO.FS.DirEntry) :
    IO (List (List Text × Node)) := do
  let names := directory ++ [Text.ofString entry.fileName]
  let path := entry.path
  if ← path.isDir then
    if unread.contains entry.fileName then return [(names, .directory)]
    let inner ← (← path.readDir).toList.mapM (nodesOf names)
    return (names, .directory) :: inner.flatten
  let content ← IO.FS.readBinFile path
  let modified := (← path.metadata).modified
  return [(names, .file content.toList (.ofInt modified.sec))]

/-- The files below a directory, which is given with the names of its path. -/
def filesBelow (working : Path) (entries : List IO.FS.DirEntry) : IO FileSystem := do
  let above := (List.range working.names.length).map fun n ↦
    (working.names.take (n + 1), Node.directory)
  let nodes ← entries.mapM (nodesOf working.names)
  return ⟨working, above ++ nodes.flatten⟩

/-- The variables of the process that settings are read from. -/
def environment : IO Environment := do
  let names := Settings.names.map fun name ↦ Settings.variableStart ++ name
  let spelled := ("HOME" : Text) :: names.map Text.upper ++ names
  let found ← spelled.mapM fun name ↦ do
    let value ← IO.getEnv ((Text.toString? name).getD "")
    return (value.map fun v ↦ (name, Text.ofString v)).toList
  return found.flatten

/-- Writes a file whole under another name, and renames it. -/
def writeWhole (names : List Text) (content : Bytes) : IO Unit := do
  let path := ((Path.mk "/" names).text.toString?).getD ""
  let parent := ((Path.mk "/" names.dropLast).text.toString?).getD ""
  IO.FS.createDirAll parent
  IO.FS.writeBinFile (path ++ ".tmp") ⟨content.toArray⟩
  IO.FS.rename (path ++ ".tmp") path

/-- Writes the files that have changed. -/
def writeChanged (before after : FileSystem) : IO Unit :=
  for (names, node) in after.nodes do
    if let .file content _ := node then
      if (before.read ⟨"/", names⟩).toOption != some content then writeWhole names content

/-- The session of a run: no request is answered, and there is no browser. -/
def session (files : FileSystem) (now : Timestamp) : Session where
  files
  now
  server := .ofServer fun _ _ ↦ .failed "no network"
  requests := []
  page := none
  calls := []
  liveIndex := .unknown
  remaining := none

end StoryCatalog.Program

open StoryCatalog StoryCatalog.Program in
/-- Runs what the arguments ask for, and exits with the status of the report. -/
def main (args : List String) : IO UInt32 := do
  let here ← IO.currentDir
  let working := Path.ofText (Text.ofString here.toString)
  let files ← filesBelow working (← here.readDir).toList
  let clock := (← Std.Time.Timestamp.now).toNanosecondsSinceUnixEpoch.val.toNat / 1000
  let some now := Timestamp.ofClock? clock | throw (IO.userError "the clock shows no date")
  let known ← environment
  let time := Binary64.ofQuotient false clock 1000000
  let (report, after) :=
    Invocation.run ⟨known, time⟩ (session files now) (args.map Text.ofString)
  writeChanged files after.files
  IO.print ((report.output.toString?).getD "")
  for line in report.errors do
    IO.eprintln ((line.toString?).getD "")
  return report.status.code.toUInt32
