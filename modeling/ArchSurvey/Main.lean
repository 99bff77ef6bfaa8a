import ArchSurvey.CommandLine.Run

/-!
# The program

The outer layer: what a request may need is read from the file system into a disk, the request is
run on it, and what it has changed and printed is written.
-/

namespace ArchSurvey.Main

/-- The entries of a directory.  What cannot be read is left out. -/
partial def readEntries (path : String) : IO (List (String × Node)) := do
  let found ← (← IO.FS.realPath path).readDir
  found.toList.filterMapM fun entry => do
    let below := Path.join path entry.fileName
    try
      match (← entry.path.symlinkMetadata).type with
      | .dir => return some (entry.fileName, .directory (← readEntries below))
      | .symlink => return some (entry.fileName, .link (← IO.FS.realPath below).toString)
      | _ => return some (entry.fileName, .file (← IO.FS.readBinFile below).toList)
    catch _ => return none

/-- The place of a path and the node there, if something can be read there. -/
def readNode? (path : String) : IO (Option (List String × Node)) := do
  try
    let real ← IO.FS.realPath path
    let node ← match (← real.metadata).type with
      | .dir => Node.directory <$> readEntries real.toString
      | _ => (fun bytes => Node.file bytes.toList) <$> IO.FS.readBinFile real
    return some (Path.names real.toString, node)
  catch _ => return none

/-- The paths that a word of the command line may stand for. -/
def pathsOf (word : String) : List String :=
  match Text.cut ['='] word.toList with
  | some (_, value) => [word, String.ofList value]
  | none => [word]

/-- The disk that a request may need: the current directory, and what its words lead to. -/
def readDisk (words : List String) : IO Disk := do
  let current := (← IO.currentDir).toString
  let paths := current :: (words.flatMap pathsOf).map (Path.join current)
  let tree ← paths.foldlM (fun tree path => do
    match ← readNode? path with
    | some (place, node) => return tree.insert place node
    | none => return tree) Node.emptyDirectory
  return ⟨tree, Path.names current⟩

/-- Writes the files that a request has changed. -/
def writeChanges (before after : Disk) : IO Unit := do
  for (place, content) in after.tree.filesNotIn before.tree do
    IO.FS.createDirAll ("/" ++ "/".intercalate place.dropLast)
    IO.FS.writeBinFile ("/" ++ "/".intercalate place) (ByteArray.mk content.toArray)

end ArchSurvey.Main

/-- Runs the request that the command line makes. -/
def main (words : List String) : IO UInt32 := do
  let disk ← ArchSurvey.Main.readDisk words
  let colors := (← (← IO.getStdout).isTty) && (← IO.getEnv "NO_COLOR").isNone
  let session : ArchSurvey.CommandLine.Session := { disk, colors }
  let started ← IO.monoMsNow
  let _ ← IO.lazyPure fun _ => (ArchSurvey.CommandLine.runWords session words).exitCode
  let milliseconds := (← IO.monoMsNow) - started
  let outcome := ArchSurvey.CommandLine.runWords { session with milliseconds } words
  ArchSurvey.Main.writeChanges disk outcome.disk
  IO.print outcome.output
  for line in outcome.errors do IO.eprintln line
  return outcome.exitCode.toUInt32
