import ScriptIndex.Settings.Document
import ScriptIndex.Text.Letters

namespace ScriptIndex

/-- How the workspace is scanned: patterns of paths that are left out, the number of readers, and the
encoding of files. -/
structure ScanSettings where
  excludePatterns : List String := [".git/*", "node_modules/*", "*/node_modules/*", ".runedex/*"]
  ioWorkers : Int := 4
  encoding : Datum := .text "utf-8"

/-- How the editor is followed: the quiet period, in seconds, before the shown file is read again. -/
structure EditorSettings where
  debounce : Float := 0.4

/-- What is logged. -/
structure LogSettings where
  level : String := "WARNING"

/-- All settings. -/
structure Settings where
  scan : ScanSettings := {}
  editor : EditorSettings := {}
  log : LogSettings := {}

namespace Settings

/-- A setting that has a value it must not have. -/
inductive Invalid where
  | tooFewWorkers (n : Int)
  | unknownEncoding (name : String)
  | negativeDebounce (x : Float)
  | unknownLevel (level : String)

def levels : List String :=
  ["DEBUG", "INFO", "WARNING", "ERROR", "CRITICAL"]

def Invalid.message : Invalid → String
  | .tooFewWorkers n => "io_workers must be >= 1, got " ++ toString n
  | .unknownEncoding name => "Unknown encoding '" ++ name ++ "'"
  | .negativeDebounce x => "debounce_seconds must be >= 0, got " ++ Decimal.ofFloat x
  | .unknownLevel level =>
    "Unknown log level '" ++ level ++ "'. Valid: " ++ ", ".intercalate levels

/-- Why there are no settings. -/
inductive Fault where
  /-- A settings file cannot be passed over. -/
  | source (e : SourceError)
  /-- A value cannot be read as what the setting needs. -/
  | misfit (m : Datum.Misfit)
  /-- The encoding is one that cannot write even the empty text. -/
  | refusedEncoding
  /-- Something that is no mapping stands in the place of one. -/
  | notAMapping
  deriving DecidableEq, Repr

end Settings

/-- What is invalid about the scan settings. A number of readers has to be short enough to be told, and the
encoding has to be a text to be looked up, and then to write the empty text. -/
def ScanSettings.check [Codecs] (s : ScanSettings) : Except Settings.Fault (Option Settings.Invalid) :=
  if s.ioWorkers < 1 then
    if Datum.isShort s.ioWorkers then .ok (some (.tooFewWorkers s.ioWorkers))
    else .error (.misfit .content)
  else match s.encoding with
    | .text name =>
      if name.toList.contains (Char.ofNat 0) then .error (.misfit .content)
      else match Codecs.find? name with
        | some codec => if codec.writes then .ok none else .error .refusedEncoding
        | none => .ok (some (.unknownEncoding name))
    | _ => .error (.misfit .kind)

def EditorSettings.check (s : EditorSettings) : Option Settings.Invalid :=
  if s.debounce < 0.0 then some (.negativeDebounce s.debounce) else none

def LogSettings.check (s : LogSettings) : Option Settings.Invalid :=
  if Settings.levels.contains (Text.upper s.level) then none else some (.unknownLevel s.level)

namespace Settings

/-- The first thing that is invalid about the settings. -/
def check [Codecs] (s : Settings) : Except Fault (Option Invalid) := do
  match ← s.scan.check with
  | some invalid => return some invalid
  | none => return s.editor.check.or s.log.check

def commaList (s : String) : List String :=
  (((List.splitOn ',' s.toList).map Text.strip).filter (· ≠ [])).map String.ofList

private def fit {α : Type} (x : Except Datum.Misfit α) : Except Fault α :=
  x.mapError .misfit

def patterns : Datum → Except Fault (List String)
  | .text s => .ok (commaList s)
  | value =>
    match value.members? with
    | some members => fit (members.mapM Datum.toText)
    | none => .error (.misfit .kind)

def entriesUnder (data : Datum.Entries) (name : String) : Except Fault Datum.Entries :=
  match data.lookup (.text name) with
  | none => .ok []
  | some value =>
    if value.isTruthy then
      match value with
      | .map entries => .ok entries
      | _ => .error .notAMapping
    else .ok []

def ofEntries (data : Datum.Entries) : Except Fault Settings := do
  let defaults : Settings := {}
  let scan ← entriesUnder data "index"
  let excludePatterns ←
    match scan.lookup (.text "exclude_patterns") with
    | some value => patterns value
    | none => .ok defaults.scan.excludePatterns
  let ioWorkers ←
    match scan.lookup (.text "io_workers") with
    | some value => fit value.toInt
    | none => .ok defaults.scan.ioWorkers
  let encoding := (scan.lookup (.text "encoding")).getD defaults.scan.encoding
  let editor ← entriesUnder data "editor"
  let debounce ←
    match editor.lookup (.text "debounce_seconds") with
    | some value => fit value.toFloat
    | none => .ok defaults.editor.debounce
  let log ← entriesUnder data "logging"
  let level ←
    match log.lookup (.text "level") with
    | some value => fit value.toText
    | none => .ok defaults.log.level
  return { scan := ⟨excludePatterns, ioWorkers, encoding⟩, editor := ⟨debounce⟩,
           log := ⟨Text.upper level⟩ }

def ofDatum : Datum → Except Fault Settings
  | .map entries => ofEntries entries
  | _ => .error .notAMapping

def toEntries (s : Settings) : Datum.Entries :=
  [("index", .map [("exclude_patterns", .list (s.scan.excludePatterns.map .text)),
      ("io_workers", .int s.scan.ioWorkers), ("encoding", s.scan.encoding)]),
    ("editor", .map [("debounce_seconds", .float s.editor.debounce)]),
    ("logging", .map [("level", .text s.log.level)])]

def toDatum (s : Settings) : Datum :=
  .map s.toEntries

end Settings

end ScriptIndex
