import ScriptIndex.CommandLine.Invocation
import ScriptIndex.Query
import ScriptIndex.Settings.Files
import ScriptIndex.Snapshot
import ScriptIndex.Workspace

namespace ScriptIndex.CommandLine

def versionText : String := "runedex 0.1.0\n"

inductive RunError where
  | settings (f : Settings.Fault)
  | workspace (e : WorkspaceError)
  | text (e : TextError)
  | disk (e : DiskError)
  | unknownLevel
  /-- The workspace was left blank. -/
  | blankProject
  /-- The category was left blank. -/
  | blankCategory
  /-- The line or the column was left blank. -/
  | blankPosition
  deriving Repr

/-- What is around a run: the files, the environment, the working directory, and the home of the
user. -/
structure World where
  disk : Disk
  environment : Environment := {}
  directory : Path
  home : Path

/-- What a run leaves behind: the files, what was printed, and the exit code or why it was broken
off. -/
structure Result where
  disk : Disk
  output : String
  outcome : Except RunError Nat

structure Progress where
  disk : Disk
  output : String := ""

abbrev Step := ExceptT RunError (StateM Progress)

def printLine (s : String) : Step Unit :=
  modify fun p => { p with output := p.output ++ s ++ "\n" }

def attempt {ε α : Type} (wrap : ε → RunError) (x : Except ε α) : Step α :=
  match x with
  | .ok a => pure a
  | .error e => throw (wrap e)

def writeFile (path : Path) (makeDirectories : Bool) (text : String) : Step Unit := do
  let d := (← get).disk
  let bytes := text.toUTF8.data.toList
  let (d, made) := if makeDirectories then d.makeDirectories path.parts.dropLast else (d, .ok ())
  modify fun p => { p with disk := d }
  attempt .disk made
  let d ← attempt .disk (d.write path.parts bytes)
  modify fun p => { p with disk := d }

def knownLevels : List String :=
  ["CRITICAL", "FATAL", "ERROR", "WARN", "WARNING", "INFO", "DEBUG", "NOTSET"]

structure Session where
  world : World
  store : SettingsStore
  settings : Settings
  workspace : Workspace

def advance {α : Type} (s : Session) (x : Workspace × Except WorkspaceError α) :
    Step (Session × α) := do
  let a ← attempt .workspace x.2
  return ({ s with workspace := x.1 }, a)

def build [KeyOrder] [Codecs] (s : Session) : Step (Session × Nat) := do
  let (s, count) ← advance s (s.workspace.rebuildAll (← get).disk)
  let (s, ()) ← advance s (s.workspace.flush (← get).disk)
  return (s, count)

def unreadable (d : Disk) (codec : Codec) (path : Path) : Except RunError String :=
  match d.read path.parts with
  | .error e => .ok (e.message path.text)
  | .ok bytes =>
    match codec.decode bytes with
    | .error (.malformed e) => .ok e.message
    | .error .refused => .error (.text .refused)
    | .ok _ => .ok ""

def showFile [Codecs] (s : Session) (file : String) : Step (Session × Option (String × String)) := do
  let d := (← get).disk
  let key := s.workspace.fileKey file
  match ← attempt .workspace (s.workspace.read d key) with
  | some text =>
    let (s, ()) ← advance s ((s.workspace.setActive (some key) (some text)).flush d)
    return (s, some (key, text))
  | none =>
    let codec := (Codecs.find? s.settings.scan.encoding.display).getD Encoding.utf8.codec
    let reason ← attempt id (unreadable d codec (Path.parse key))
    printLine ("Error: cannot read " ++ file ++ ": " ++ reason)
    return (s, none)

def runIndex [KeyOrder] [Codecs] (s : Session) (dump keys : Option String) : Step Nat := do
  let (s, count) ← build s
  let symbols := s.workspace.index.symbols
  printLine ("Indexed " ++ toString count ++ " files, " ++ toString symbols.size ++ " identifiers")
  if let some file := dump.filter (· ≠ "") then
    writeFile (s.world.directory.join (Path.parse file)) true symbols.snapshot
    printLine ("Cache written to " ++ (Path.parse file).text)
  if let some file := keys.filter (· ≠ "") then
    writeFile (s.world.directory.join (Path.parse file)) false
      (Json.indented (.list (symbols.keys.map .text)))
    printLine ("Cache keys written to " ++ (Path.parse file).text)
  return 0

def runLookup [KeyOrder] [Codecs] (s : Session) (name : String) (category : Option String) : Step Nat := do
  let (s, _) ← build s
  let some category := category | throw .blankCategory
  let id := Text.upper category
  match (Category.ofId? id).bind fun c => s.workspace.index.symbols.get? name c with
  | some symbol =>
    printLine (Json.indented symbol.toDatum)
    return 0
  | none =>
    printLine ("No " ++ id ++ " named " ++ name)
    return 1

def placeText (l : Location) : String :=
  l.file ++ ":" ++ toString l.span.start.line ++ ":" ++ toString l.span.start.column

def place? (text : String) (line column : Option Int) : Step (Option (Int × Int)) := do
  let some line := line | throw .blankPosition
  match column with
  | some column => return some (line, column)
  | none =>
    let found := if line < 0 then none else (Text.splitLines text.toList)[line.toNat]?
    if (found.map fun l => (LineContext.ofLine l line "").words).getD [] = [] then return none
    else throw .blankPosition

def runMatch [KeyOrder] [Codecs] (s : Session) (file : String) (line column : Option Int) : Step Nat := do
  let (s, _) ← build s
  let (s, shown) ← showFile s file
  match shown with
  | none => return 1
  | some (key, text) =>
    let place ← place? text line column
    match place.bind fun (line, column) => Query.matchAt? s.workspace.index text line key column with
    | none =>
      printLine "No match"
      return 1
    | some m =>
      let kind := if m.role.declares then "declaration" else "reference"
      printLine (m.word ++ ": " ++ m.role.category.id ++ " (" ++ kind ++ ")")
      let symbol := s.workspace.index.symbols.get? m.word m.role.category
      if let some place := symbol.bind Symbol.declaration then
        printLine ("  declared at " ++ placeText place)
      return 0

def runReferences [KeyOrder] [Codecs] (s : Session) (file : String) (line column : Option Int) :
    Step Nat := do
  let (s, _) ← build s
  let (s, shown) ← showFile s file
  match shown with
  | none => return 1
  | some (key, text) =>
    let place ← place? text line column
    let found := (place.map fun (line, column) =>
      Query.references s.workspace.index text line key column).getD []
    if found.isEmpty then
      printLine "No references"
      return 1
    else
      found.forM fun place => printLine (placeText place)
      return 0

def runConfig [Codecs] (s : Session) (project : Path) (key value : Option String) (forUser : Bool) :
    Step Nat := do
  match key, value with
  | none, _ =>
    printLine (s.store.page s.settings)
    return 0
  | some key, none =>
    match ← attempt .settings (s.store.get key).2.1 with
    | none =>
      printLine ("Unknown setting: " ++ key)
      return 1
    | some text =>
      printLine text
      return 0
  | some key, some value =>
    let scope : Settings.Scope := if forUser then .user else .project
    let file := settingsPath (if forUser then s.world.home else project)
    let (d, _, refusal, _) := s.store.setOnDisk (← get).disk file key value scope
    modify fun p => { p with disk := d }
    match ← attempt .settings refusal with
    | some refusal =>
      printLine ("Error: " ++ refusal.message)
      return 1
    | none =>
      printLine ("Set " ++ key ++ " = " ++ value)
      return 0

def projectRoot (w : World) (i : Invocation) : Except RunError Path := do
  let given ← match i.project with
    | some (some given) => .ok given
    | some none => .error .blankProject
    | none => .ok (w.environment.project.getD ".")
  let root := (w.directory.join (Path.parse given)).resolve
  if given.toList.contains (Char.ofNat 0) then .error (.disk .unusable) else return root

def runCommand [KeyOrder] [Codecs] (w : World) (i : Invocation) (c : Command) : Step Nat := do
  let project ← attempt id (projectRoot w i)
  let (_, settings, store) := (SettingsStore.onDisk (← get).disk w.home project w.environment).load
  let settings ← attempt .settings settings
  let level := (i.logLevel.filter (· ≠ "")).getD settings.log.level
  if !knownLevels.contains (Text.upper level) then
    throw .unknownLevel
  let s : Session := ⟨w, store, settings, { root := project, scan := settings.scan }⟩
  match c with
  | .index dump keys => runIndex s dump keys
  | .lookup name category => runLookup s name category
  | .matchWord file line column => runMatch s file line column
  | .references file line column => runReferences s file line column
  | .config key value forUser => runConfig s project key value forUser

def usage : String :=
  "usage: runedex [-h] [--project PROJECT] [--log-level LOG_LEVEL] [--version]\n"
    ++ "               \x7bindex,lookup,match,references,config\x7d ...\n"

def run [KeyOrder] [Codecs] (w : World) (args : List String) : Result :=
  match invocation args with
  | .error .help => ⟨w.disk, usage, .ok 0⟩
  | .error .version => ⟨w.disk, versionText, .ok 0⟩
  | .error .misuse => ⟨w.disk, "", .ok 2⟩
  | .ok i =>
    match i.command with
    | none => ⟨w.disk, usage, .ok 0⟩
    | some c =>
      let (outcome, progress) := (runCommand w i c).run.run { disk := w.disk }
      ⟨progress.disk, progress.output, outcome⟩

end ScriptIndex.CommandLine
