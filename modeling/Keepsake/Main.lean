import Keepsake.CommandLine
/-!
# The program

The part that touches the file system: it takes the folders that a request is about into a `Disk`,
lets `CommandLine` answer, prints, and deletes the files that the answer has deleted.
-/

namespace Keepsake.CommandLine

/--
The folders that a request is about: the one it names, and the one of a save-file told by its
path.
-/
def Request.folders (here : Path) (r : Request) : List Path :=
  let folderOf (name : String) : Path := (Path.resolve here (Path.join r.directory name)).dropLast
  let more := match r.command with
    | .list => []
    | .view name => [folderOf name]
    | .verify name => [folderOf name]
    | .backups name => [folderOf name]
    | .prune name _ _ => [folderOf name]
  (Path.resolve here r.directory :: more).eraseDups

/-- Takes a folder with its files into the surroundings. -/
def Surroundings.addFolder (found : Surroundings) (path : Path) : IO Surroundings := do
  let real := (← IO.currentDir) / (if path.isEmpty then "/" else path.text)
  if !(← real.isDir) then return found
  let mut found := { found with disk := found.disk.makeFolder path }
  for entry in ← real.readDir do
    let known ← entry.path.metadata
    if known.type == .file then
      let details : FileDetails := ⟨known.byteSize.toNat, known.modified.sec⟩
      let data ← IO.FS.readBinFile entry.path
      found := { found with
        disk := found.disk.setFile path entry.fileName data
        details := found.details.insert (Path.text (path ++ [entry.fileName])) details }
  return found

/-- Deletes the files of a folder that an answer has deleted. -/
def Ending.applyTo (ending : Ending) (found : Surroundings) (path : Path) : IO Unit := do
  let names := ((found.disk.folder? path).map (·.keys)).getD []
  for name in names do
    if (ending.disk.file? path name).isNone then
      IO.FS.removeFile ((← IO.currentDir) / Path.text (path ++ [name]))

/-- Does what is asked for on the file system. -/
def Request.perform (r : Request) : IO Ending := do
  let here := Path.resolve [] (← IO.currentDir).toString
  let disk := { Disk.bare.makeFolder here with here }
  let empty : Surroundings := ⟨disk, NameMap.empty, none, ""⟩
  let found ← (r.folders here).foldlM Surroundings.addFolder empty
  let asked := question found.disk r
  IO.print asked
  (← IO.getStdout).flush
  let input ← if asked.isEmpty then pure "" else (← IO.getStdin).getLine
  let ending := answer { found with input } r
  for path in r.folders here do ending.applyTo found path
  return ending

end Keepsake.CommandLine

open Keepsake.CommandLine in
/-- Runs the program; gives its exit code. -/
def main (args : List String) : IO UInt32 := do
  let ending ← match Request.ofArguments (← IO.getEnv "AUTOSAVE_DIR") args with
    | .ok r => r.perform
    | .error stop => pure (stopped Keepsake.Disk.bare stop)
  IO.print ending.output
  match ending.complaint with
  | some text => IO.eprintln text
  | none => pure ()
  return UInt32.ofNat ending.code
