import ScriptIndex.Disk
import ScriptIndex.Indexing
import ScriptIndex.Registry
import ScriptIndex.Settings.Basic
import ScriptIndex.Text.Glob

/-! A workspace: its index, kept up to date with the files on disk, and the file that the editor shows.
A full rebuild reads every file once and indexes all of them twice, so that the second pass sees what
the first has declared. -/
namespace ScriptIndex

/-- The state of a workspace. The shown file may have text that is not saved, and its scripts may be
waiting to be read again. -/
structure Workspace where
  root : Path
  scan : ScanSettings := {}
  index : Index := {}
  activeFile : Option String := none
  activeText : Option String := none
  isPending : Bool := false

/-- Why an operation on a workspace was given up. Files that are missing or malformed are passed over
and are no such reason. -/
inductive WorkspaceError where
  | noWorkers
  | unusableEncoding (m : Datum.Misfit)
  | unusablePath
  | unknownEncoding
  | refusedText
  | build (e : BuildError)
  deriving DecidableEq, Repr

namespace Workspace

def extraFileTypes : List String := ["pack", "jm2"]

def fileTypes : Std.ExtTreeSet String :=
  Registry.standard.declaringFileTypes.insertMany extraFileTypes

/-- The key of a file; a relative path is taken from the root. -/
def fileKey (w : Workspace) (file : String) : String :=
  (w.root.join (Path.parse file)).text

def withoutQuery (file : String) : String :=
  String.ofList (file.toList.takeWhile fun c => c ≠ '#' ∧ c ≠ '?')

/-- Whether files with this name are indexed. -/
def isIndexed (file : String) : Bool :=
  fileTypes.contains (Path.parse (withoutQuery file)).extension

def isExcluded (w : Workspace) (parts : List String) : Bool :=
  w.scan.excludePatterns.any fun pattern => Text.fits pattern ("/".intercalate parts)

/-- The files of the workspace that are indexed, in order. -/
def findFiles (w : Workspace) (d : Disk) : List String :=
  ((d.placesBelow w.root.parts).filter fun parts =>
      d.isFile parts && isIndexed (Path.mk w.root.root parts).text
        && !w.isExcluded (parts.drop w.root.parts.length)).map
    fun parts => (Path.mk w.root.root parts).text

def textOf? [Codecs] (d : Disk) (encoding : Datum) (file : String) :
    Except WorkspaceError (Option String) :=
  let decoded (codec : Option Codec) : Except WorkspaceError (Option String) :=
    match d.read (Path.parse file).parts with
    | .error .unusable => .error .unusablePath
    | .error _ => .ok none
    | .ok bytes =>
      match codec with
      | none => .error .unknownEncoding
      | some codec =>
        match codec.decode bytes with
        | .ok text => .ok (some (String.ofList (Text.uniformNewlines text)))
        | .error (.malformed _) => .ok none
        | .error .refused => .error .refusedText
  match encoding with
  | .text name =>
    if name.toList.contains (Char.ofNat 0) then .error (.unusableEncoding .content)
    else decoded (Codecs.find? name)
  | .null => decoded (some Encoding.utf8.codec)
  | _ => .error (.unusableEncoding .kind)

def read [Codecs] (w : Workspace) (d : Disk) (file : String) : Except WorkspaceError (Option String) :=
  textOf? d w.scan.encoding file

/-- The files among the given ones that have a text, each under its key and with the text. -/
def readAll [Codecs] (w : Workspace) (d : Disk) (files : List String) :
    Except WorkspaceError (List (String × String)) := do
  let texts ← files.mapM fun file => do
    return (← w.read d file).map fun text => (w.fileKey file, text)
  return texts.filterMap id

def indexFiles [KeyOrder] (i : Index) (files : List (String × String)) : Except BuildError Index :=
  files.foldlM (fun i (file, text) => i.parse file text) i

def indexTwice [KeyOrder] (i : Index) (files : List (String × String)) : Except BuildError Index := do
  indexFiles (← indexFiles i files) files

def schedule (w : Workspace) : Workspace :=
  { w with isPending := true }

def withIndex (w : Workspace) (index : Except BuildError Index) :
    Workspace × Except WorkspaceError Unit :=
  match index with
  | .ok index => ({ w with index := index }, .ok ())
  | .error e => (w, .error (.build e))

/-- Indexes the whole workspace anew. The answer is the number of files. -/
def rebuildAll [KeyOrder] [Codecs] (w : Workspace) (d : Disk) : Workspace × Except WorkspaceError Nat :=
  let w := { w with index := w.index.clear }
  if w.scan.ioWorkers < 1 then (w, .error .noWorkers)
  else match w.readAll d (w.findFiles d) with
    | .error e => (w, .error e)
    | .ok files =>
      match w.withIndex (indexTwice w.index files) with
      | (w, .ok ()) => (w.schedule, .ok files.length)
      | (w, .error e) => (w, .error e)

def replaceFile [KeyOrder] (w : Workspace) (file : String) (text : Option String) :
    Workspace × Except WorkspaceError Unit :=
  let w := { w with index := w.index.clearFile file }
  match text with
  | some text => w.withIndex (w.index.parse file text)
  | none => (w, .ok ())

/-- Indexes a file anew, with the given text or the one on disk. The answer says whether there was a
text to index. -/
def rebuildFile [KeyOrder] [Codecs] (w : Workspace) (d : Disk) (file : String) (text : Option String) :
    Workspace × Except WorkspaceError Bool :=
  if isIndexed file then
    let key := w.fileKey file
    match if text.isSome then .ok text else w.read d key with
    | .error e => (w, .error e)
    | .ok text =>
      match w.replaceFile key text with
      | (w, .ok ()) => (w.schedule, .ok text.isSome)
      | (w, .error e) => (w, .error e)
  else (w, .ok false)

def createFile [KeyOrder] [Codecs] (w : Workspace) (d : Disk) (file : String) :
    Workspace × Except WorkspaceError Unit :=
  if isIndexed file then
    let key := w.fileKey file
    match w.read d key with
    | .error e => (w, .error e)
    | .ok none => (w, .ok ())
    | .ok (some text) => w.withIndex (w.index.parse key text)
  else (w, .ok ())

def createFiles [KeyOrder] [Codecs] (w : Workspace) (d : Disk) : List String →
    Workspace × Except WorkspaceError Unit
  | [] => (w, .ok ())
  | file :: files =>
    match w.createFile d file with
    | (w, .ok ()) => w.createFiles d files
    | (w, .error e) => (w, .error e)

def clearFile (w : Workspace) (file : String) : Workspace :=
  if isIndexed file then { w with index := w.index.clearFile (w.fileKey file) } else w

def clearFiles (w : Workspace) (files : List String) : Workspace :=
  files.foldl clearFile w

def renameFile [KeyOrder] [Codecs] (w : Workspace) (d : Disk) (file newFile : String) :
    Workspace × Except WorkspaceError Unit :=
  if isIndexed file && isIndexed newFile then
    match (w.clearFile file).createFile d newFile with
    | (w, .error e) => (w, .error e)
    | (w, .ok ()) =>
      (if w.activeFile = some (w.fileKey file) then
        { w with activeFile := some (w.fileKey newFile) }
      else w, .ok ())
  else (w, .ok ())

def renameFiles [KeyOrder] [Codecs] (w : Workspace) (d : Disk) :
    List (String × String) → Workspace × Except WorkspaceError Unit
  | [] => (w, .ok ())
  | (file, newFile) :: pairs =>
    match w.renameFile d file newFile with
    | (w, .ok ()) => w.renameFiles d pairs
    | (w, .error e) => (w, .error e)

def setActive (w : Workspace) (file : Option String) (text : Option String) : Workspace :=
  { w with activeFile := (file.filter (· ≠ "")).map w.fileKey, activeText := text }.schedule

def rebuildActive [Codecs] (w : Workspace) (d : Disk) : Workspace × Except WorkspaceError Unit :=
  let text : Except WorkspaceError (Option String) :=
    match w.activeFile, w.activeText with
    | some file, none => if ScriptCache.hasEnding ".rs2" file then w.read d file else .ok none
    | _, text => .ok text
  match text with
  | .error e => (w, .error e)
  | .ok text =>
    ({ w with index := { w.index with scripts := ScriptCache.ofText w.activeFile text } }, .ok ())

/-- Reads the scripts of the shown file, which then wait no longer. What the timer does when the quiet
period is over is taken as this one step. -/
def runPending [Codecs] (w : Workspace) (d : Disk) : Workspace × Except WorkspaceError Unit :=
  { w with isPending := false }.rebuildActive d

def flush [Codecs] (w : Workspace) (d : Disk) : Workspace × Except WorkspaceError Unit :=
  if w.isPending then w.runPending d else (w, .ok ())

def close (w : Workspace) : Workspace :=
  { w with index := {}, isPending := false }

/-- Something that the editor or the disk reports. -/
inductive Event where
  | created (file : String)
  | saved (file : String)
  | renamed (file : String) (newFile : Option String)
  | deleted (file : String)
  | activeChanged (file : Option String) (text : Option String)
  | documentChanged (file : String) (text : Option String)
  deriving DecidableEq, Repr

/-- Follows what is reported. -/
def handle [KeyOrder] [Codecs] (w : Workspace) (d : Disk) : Event → Workspace × Except WorkspaceError Unit
  | .created file => w.createFile d file
  | .saved file =>
    let w := if w.activeFile = some (w.fileKey file) then { w with activeText := none } else w
    match w.rebuildFile d file none with
    | (w, .ok _) => (w, .ok ())
    | (w, .error e) => (w, .error e)
  | .renamed file newFile =>
    match newFile.filter (· ≠ "") with
    | some newFile => w.renameFile d file newFile
    | none => (w, .ok ())
  | .deleted file => (w.clearFile file, .ok ())
  | .activeChanged file text => (w.setActive file text, .ok ())
  | .documentChanged file text =>
    (if w.activeFile = some (w.fileKey file) then { w with activeText := text }.schedule else w,
      .ok ())

end Workspace

end ScriptIndex
