import ScriptIndex.CommandLine.Run

/-! The command line program. The files that a run may look at are read, the run is worked out, and
what it has printed and written is brought out. -/
namespace ScriptIndex.CommandLine

partial def gather (d : Disk) (path : Path) : IO Disk := do
  try
    let real ← IO.FS.realPath path.text
    if ← real.isDir then
      let d := (d.makeDirectories path.parts).1
      (← real.readDir).foldlM (fun d entry => do
        let target ← IO.FS.realPath entry.path
        if (← target.isDir) && target != entry.path then return d
        else gather d { path with parts := path.parts ++ [entry.fileName] }) d
    else
      let bytes ← IO.FS.readBinFile path.text
      return (d.writeBelow path.parts bytes.data.toList).1
  catch _ => return d

def gatherDirectory (d : Disk) (path : Path) : IO Disk := do
  try
    let real ← IO.FS.realPath path.text
    return if ← real.isDir then (d.makeDirectories path.parts).1 else d
  catch _ => return d

def Command.file? : Command → Option String
  | .matchWord file _ _ | .references file _ _ => some file
  | _ => none

def Command.keys? : Command → Option String
  | .index _ keys => keys
  | _ => none

/-- The files that a run may look at: the workspace, the user's settings, the file that is asked about,
and the directory that keys are written to. -/
def gatherSources (w : World) (args : List String) : IO Disk :=
  match invocation args with
  | .error _ => return {}
  | .ok i =>
    match projectRoot w i with
    | .error _ => return {}
    | .ok root => do
      let file := (i.command.bind Command.file?).map fun file => root.join (Path.parse file)
      let d ← ([root, settingsPath w.home] ++ file.toList).foldlM gather {}
      match i.command.bind Command.keys? with
      | none => return d
      | some keys =>
        let path := w.directory.join (Path.parse keys)
        gatherDirectory d { path with parts := path.parts.dropLast }

def writeChanges (before after : Disk) : IO Unit :=
  after.nodes.toList.forM fun (parts, node) =>
    match node with
    | .directory => pure ()
    | .file content => do
      if !(before.read parts).toOption.any (· == content) then
        IO.FS.createDirAll (Path.mk .single parts.dropLast).text
        IO.FS.writeBinFile (Path.mk .single parts).text ⟨content.toArray⟩

def emptyWorld : IO World := do
  let environment : Environment :=
    { debounce := ← IO.getEnv "RUNEDEX_DEBOUNCE", ioWorkers := ← IO.getEnv "RUNEDEX_IO_WORKERS",
      logLevel := ← IO.getEnv "RUNEDEX_LOG_LEVEL", project := ← IO.getEnv "RUNEDEX_PROJECT_PATH" }
  return { disk := {}, environment := environment, directory := Path.parse (← IO.currentDir).toString,
           home := Path.parse ((← IO.getEnv "HOME").getD "/") }

end ScriptIndex.CommandLine

open ScriptIndex CommandLine in
def main (args : List String) : IO UInt32 := do
  let world ← emptyWorld
  let disk ← gatherSources world args
  let result := @run .ascending .standard { world with disk := disk } args
  IO.print result.output
  writeChanges disk result.disk
  match result.outcome with
  | .ok code => return code.toUInt32
  | .error _ =>
    IO.eprintln "The run was broken off."
    return 1
