import ScriptIndex.Yaml.Reader
import ScriptIndex.Yaml.Writer

namespace ScriptIndex

def Document.onDisk? (d : Disk) (path : Path) : Option Document :=
  match d.leadsSomewhere path.parts with
  | .error e => some (.broken (.disk e))
  | .ok false => none
  | .ok true =>
    match d.read path.parts with
    | .error e => some (.unreadable e)
    | .ok bytes =>
      match Encoding.utf8.decode bytes with
      | .error e => some (.broken (.text e))
      | .ok text => some (Yaml.parse (String.ofList (Text.uniformNewlines text)))

def settingsPath (directory : Path) : Path :=
  { directory with parts := directory.parts ++ [".runedex", "config.yaml"] }

namespace SettingsStore

def onDisk (d : Disk) (home project : Path) (environment : Environment) : SettingsStore :=
  { userPath := (settingsPath home).text, projectPath := (settingsPath project).text,
    user := Document.onDisk? d (settingsPath home), project := Document.onDisk? d (settingsPath project),
    environment := environment }

def writeFile (d : Disk) (path : Path) (settings : Settings) : Disk × Except DiskError Unit :=
  d.writeBelow path.parts (Yaml.render settings.toDatum).toUTF8.data.toList

/-- Changes a setting and writes the file of its scope. If that file cannot be written, the settings stay
as they were. -/
def setOnDisk [Codecs] (d : Disk) (file : Path) (key value : String) (scope : Settings.Scope)
    (s : SettingsStore) :
    Disk × List Settings.Warning × Except Settings.Fault (Option Settings.Refusal) × SettingsStore :=
  match s.set key value scope with
  | (warnings, .ok none, changed) =>
    match writeFile d file (changed.loaded.getD {}) with
    | (d, .ok ()) => (d, warnings, .ok none, changed)
    | (d, .error e) => (d, warnings, .error (.source (.disk e)), s.load.2.2)
  | (warnings, answer, s) => (d, warnings, answer, s)

end SettingsStore

end ScriptIndex
