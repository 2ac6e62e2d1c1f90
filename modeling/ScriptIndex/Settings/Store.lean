import ScriptIndex.Settings.Basic

/-! Settings in layers: the environment over the project's file over the user's file over the defaults.
Settings that cannot be used give way to the defaults as a whole. -/
namespace ScriptIndex

structure Environment where
  debounce : Option String := none
  ioWorkers : Option String := none
  logLevel : Option String := none
  project : Option String := none

/-- Where settings come from, and those that were loaded last. -/
structure SettingsStore where
  userPath : String
  projectPath : String
  user : Option Document := none
  project : Option Document := none
  environment : Environment := {}
  loaded : Option Settings := none

namespace Settings

/-- Something to tell about settings that were passed over. -/
inductive Warning where
  | malformed (path : String)
  | unreadable (path : String) (e : DiskError)
  | notAMapping (path : String)
  | misfit (m : Datum.Misfit)
  | invalid (i : Invalid)

/-- How the reasons are worded that other parts of the program give. -/
structure Wording where
  malformed : String
  unreadable : DiskError → String
  misfit : Datum.Misfit → String

def Warning.message (w : Wording) : Warning → String
  | .malformed path => "Ignoring malformed config " ++ path ++ ": " ++ w.malformed
  | .unreadable path e => "Ignoring malformed config " ++ path ++ ": " ++ w.unreadable e
  | .notAMapping path => "Ignoring config " ++ path ++ ": not a mapping"
  | .misfit m => "Invalid configuration, using defaults: " ++ w.misfit m
  | .invalid i => "Invalid configuration, using defaults: " ++ i.message

def assign (key : Datum.Key) (value : Datum) : Datum.Entries → Datum.Entries
  | [] => [(key, value)]
  | entry :: rest =>
    if entry.1 == key then (entry.1, value) :: rest else entry :: assign key value rest

def merge (base : Datum.Entries) : Datum.Entries → Datum.Entries
  | [] => base
  | (key, value) :: rest => merge (assign key (layOver (base.lookup key) value) base) rest
where
  /-- One value laid over another. -/
  layOver (old : Option Datum) : Datum → Datum
    | .map entries =>
      match old with
      | some (.map base) => .map (merge base entries)
      | _ => .map entries
    | value => value

def overlay (group key : String) (value : Option String) (data : Datum.Entries) :
    Except Fault Datum.Entries :=
  match value.filter (· ≠ "") with
  | none => .ok data
  | some value =>
    match data.lookup (.text group) with
    | none => .ok (assign group (.map [(key, .text value)]) data)
    | some (.map entries) => .ok (assign group (.map (assign key (.text value) entries)) data)
    | some _ => .error (.misfit .kind)

def layer (path : String) : Option Document → List Warning × Except Fault Datum.Entries
  | none => ([], .ok [])
  | some .malformed => ([.malformed path], .ok [])
  | some (.unreadable e) => ([.unreadable path e], .ok [])
  | some (.broken e) => ([], .error (.source e))
  | some (.value (.map entries)) => ([], .ok entries)
  | some (.value d) => if d.isTruthy then ([.notAMapping path], .ok []) else ([], .ok [])

/-- The settings that merged data gives. Settings that do not fit or are invalid give way to the
defaults; what is not shaped like settings at all is a fault. -/
def settle [Codecs] (data : Datum.Entries) : List Warning × Except Fault Settings :=
  match ofEntries data with
  | .error (.misfit .kind) => ([.misfit .kind], .ok {})
  | .error (.misfit .content) => ([.misfit .content], .ok {})
  | .error fault => ([], .error fault)
  | .ok s =>
    match s.check with
    | .error fault => ([], .error fault)
    | .ok none => ([], .ok s)
    | .ok (some invalid) => ([.invalid invalid], .ok {})

/-- The names of the settings. -/
inductive Key where
  | excludePatterns
  | ioWorkers
  | encoding
  | debounce
  | level
  deriving DecidableEq, Repr

namespace Key

def all : List Key :=
  [.debounce, .encoding, .excludePatterns, .ioWorkers, .level]

def text : Key → String
  | .excludePatterns => "index.exclude_patterns"
  | .ioWorkers => "index.io_workers"
  | .encoding => "index.encoding"
  | .debounce => "editor.debounce_seconds"
  | .level => "logging.level"

def ofText? (s : String) : Option Key :=
  all.find? fun key => key.text == s

end Key

def get (s : Settings) : Key → String
  | .excludePatterns => ",".intercalate s.scan.excludePatterns
  | .ioWorkers => toString s.scan.ioWorkers
  | .encoding => s.scan.encoding.display
  | .debounce => Decimal.ofFloat s.editor.debounce
  | .level => s.log.level

/-- The settings with one of them read from a text, if it can be. -/
def with? (key : Key) (value : String) (s : Settings) : Option Settings :=
  match key with
  | .excludePatterns => some { s with scan := { s.scan with excludePatterns := commaList value } }
  | .ioWorkers =>
    (Text.int? value.toList).map fun n => { s with scan := { s.scan with ioWorkers := n } }
  | .encoding => some { s with scan := { s.scan with encoding := .text value } }
  | .debounce => (Decimal.float? value.toList).map fun x => { s with editor := ⟨x⟩ }
  | .level => some { s with log := ⟨Text.upper value⟩ }

def checkSection [Codecs] (key : Key) (s : Settings) : Except Fault (Option Invalid) :=
  match key with
  | .excludePatterns | .ioWorkers | .encoding => s.scan.check
  | .debounce => .ok s.editor.check
  | .level => .ok s.log.check

/-- Why a setting was not changed. -/
inductive Refusal where
  | unknown (key : String)
  | unreadable (key value : String)
  | invalid (i : Invalid)

def Refusal.message : Refusal → String
  | .unknown key =>
    "Unknown setting: " ++ key ++ ". Valid: " ++ ", ".intercalate (Key.all.map Key.text)
  | .unreadable key value => "Invalid value for " ++ key ++ ": " ++ value
  | .invalid i => i.message

/-- The files that settings are saved in. -/
inductive Scope where
  | user
  | project
  deriving DecidableEq, Repr

end Settings

namespace SettingsStore
open Settings

def withEnvironment (s : SettingsStore) (data : Datum.Entries) : Except Fault Datum.Entries := do
  let data ← overlay "editor" "debounce_seconds" s.environment.debounce data
  let data ← overlay "index" "io_workers" s.environment.ioWorkers data
  overlay "logging" "level" s.environment.logLevel data

def layered (s : SettingsStore) : List Warning × Except Fault Datum.Entries :=
  match layer s.userPath s.user with
  | (warnings, .error fault) => (warnings, .error fault)
  | (warnings, .ok user) =>
    match layer s.projectPath s.project with
    | (more, .error fault) => (warnings ++ more, .error fault)
    | (more, .ok project) => (warnings ++ more, s.withEnvironment (merge (merge [] user) project))

def read [Codecs] (s : SettingsStore) : List Warning × Except Fault Settings :=
  let (warnings, data) := s.layered
  match data with
  | .error fault => (warnings, .error fault)
  | .ok data =>
    let (more, settings) := settle data
    (warnings ++ more, settings)

/-- The settings of the store; they are read once. -/
def load [Codecs] (s : SettingsStore) : List Warning × Except Fault Settings × SettingsStore :=
  match s.loaded with
  | some settings => ([], .ok settings, s)
  | none =>
    match s.read with
    | (warnings, .ok settings) => (warnings, .ok settings, { s with loaded := some settings })
    | (warnings, .error fault) => (warnings, .error fault, s)

def save (scope : Scope) (settings : Settings) (s : SettingsStore) : SettingsStore :=
  let document := some (Document.value settings.toDatum)
  match scope with
  | .user => { s with user := document, loaded := some settings }
  | .project => { s with project := document, loaded := some settings }

def set [Codecs] (s : SettingsStore) (key value : String) (scope : Scope) :
    List Warning × Except Fault (Option Refusal) × SettingsStore :=
  match Key.ofText? key with
  | none => ([], .ok (some (.unknown key)), s)
  | some k =>
    if (with? k value {}).isNone then ([], .ok (some (.unreadable key value)), s)
    else match s.load with
      | (warnings, .error fault, s) => (warnings, .error fault, s)
      | (warnings, .ok settings, s) =>
        let settings := (with? k value settings).getD settings
        match checkSection k settings with
        | .error fault => (warnings, .error fault, s)
        | .ok (some invalid) => (warnings, .ok (some (.invalid invalid)), s)
        | .ok none => (warnings, .ok none, s.save scope settings)

def get [Codecs] (s : SettingsStore) (key : String) :
    List Warning × Except Fault (Option String) × SettingsStore :=
  match Key.ofText? key with
  | none => ([], .ok none, s)
  | some key =>
    let (warnings, settings, s) := s.load
    (warnings, settings.map fun settings => some (settings.get key), s)

def page (s : SettingsStore) (settings : Settings) : String :=
  let patterns := ", ".intercalate settings.scan.excludePatterns
  "\n".intercalate
    ["Configuration:", "", "Index:",
      "  Exclude patterns: " ++ (if patterns = "" then "(none)" else patterns),
      "  IO workers: " ++ toString settings.scan.ioWorkers,
      "  Encoding: " ++ settings.scan.encoding.display, "", "Editor:",
      "  Debounce: " ++ Decimal.ofFloat settings.editor.debounce ++ "s", "", "Logging:",
      "  Level: " ++ settings.log.level, "", "Config files:", "  User: " ++ s.userPath,
      "  Project: " ++ s.projectPath]

def display [Codecs] (s : SettingsStore) : List Warning × Except Fault String × SettingsStore :=
  let (warnings, settings, s) := s.load
  (warnings, settings.map s.page, s)

end SettingsStore

end ScriptIndex
