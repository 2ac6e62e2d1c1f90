namespace ScriptIndex

inductive DisplayItem where
  | title
  | info
  | value
  | signature
  | codeblock
  deriving DecidableEq, Repr

def DisplayItem.id : DisplayItem → String
  | .title => "title"
  | .info => "info"
  | .value => "value"
  | .signature => "signature"
  | .codeblock => "codeblock"

/-- What is shown for the symbols of a category: the items at a declaration and at a reference, the
language of code, the lines left out before the code starts, and, if only some lines of the code are
shown, what they start with. -/
structure Display where
  declarationItems : List DisplayItem := []
  referenceItems : List DisplayItem := []
  language : String := "runescript"
  skippedLines : Nat := 1
  inclusions : Option (List String) := none
  deriving DecidableEq, Repr

def Display.shows (d : Display) (item : DisplayItem) : Bool :=
  d.declarationItems.contains item || d.referenceItems.contains item

/-- How the symbols of a category are handled: the type keywords that stand for it, the file types
that declare it, whether its symbols are kept, are never declared, may be renamed, rename a file with
them, exist for display only, or stand for nothing at all. -/
structure Profile where
  id : String
  keywords : List String := []
  fileTypes : List String := []
  cached : Bool := false
  referenceOnly : Bool := false
  renameable : Bool := false
  renamesFile : Bool := false
  displayOnly : Bool := false
  inert : Bool := false
  display : Option Display := none
  deriving DecidableEq, Repr

def Profile.language (p : Profile) : String :=
  (p.display.map Display.language).getD "runescript"

/-- The categories of symbols. -/
inductive Category where
  | unknown | localVar | globalVar | constant | label | proc | timer | softTimer | queue
  | walkTrigger | command | trigger | category | seq | spotanim | hunt | loc | npc | obj | inv
  | enum | param | struct | dbRow | dbTable | dbColumn | idk | mesanim | interface | component
  | synth | model | midi | stat | configKey | coordinates | color | number
  deriving DecidableEq, Repr

namespace Category

def all : List Category :=
  [unknown, localVar, globalVar, constant, label, proc, timer, softTimer, queue, walkTrigger,
    command, trigger, category, seq, spotanim, hunt, loc, npc, obj, inv, enum, param, struct, dbRow,
    dbTable, dbColumn, idk, mesanim, interface, component, synth, model, midi, stat, configKey,
    coordinates, color, number]

private def scriptDisplay : Display where
  declarationItems := [.title, .info, .signature]
  referenceItems := [.title, .info, .signature]

private def configDisplay (language : String) (inclusions : Option (List String)) : Display where
  declarationItems := [.title, .info]
  referenceItems := [.title, .info, .codeblock]
  language := language
  inclusions := inclusions

private def fileDisplay : Display where
  referenceItems := [.title, .info]

private def script (id : String) (keywords : List String) : Profile where
  id := id
  keywords := keywords
  fileTypes := ["rs2"]
  cached := true
  renameable := true
  display := some scriptDisplay

private def config (id : String) (keywords fileTypes : List String) (display : Display) :
    Profile where
  id := id
  keywords := keywords
  fileTypes := fileTypes
  cached := true
  renameable := true
  display := some display

private def fileName (id : String) (keywords fileTypes : List String) (renames : Bool) :
    Profile where
  id := id
  keywords := keywords
  fileTypes := fileTypes
  cached := true
  referenceOnly := true
  renameable := renames
  renamesFile := renames
  display := some fileDisplay

private def described : Option (List String) :=
  some ["name=", "desc=", "category="]

def profile : Category → Profile
  | unknown => { id := "UNKNOWN", inert := true }
  | localVar => { id := "LOCAL_VAR", renameable := true }
  | globalVar => config "GLOBAL_VAR" ["var", "varp", "varbit", "varn", "vars"]
      ["varp", "varbit", "varn", "vars"] (configDisplay "varpconfig" (some ["type="]))
  | constant => config "CONSTANT" ["constant"] ["constant"]
      { configDisplay "constants" none with skippedLines := 0 }
  | label => script "LABEL" ["label"]
  | proc => script "PROC" ["proc"]
  | timer => script "TIMER" ["timer"]
  | softTimer => script "SOFTTIMER" ["softtimer"]
  | queue => script "QUEUE" ["queue", "weakqueue"]
  | walkTrigger => script "WALKTRIGGER" ["walktrigger"]
  | command => { script "COMMAND" ["command"] with renameable := false }
  | trigger => { id := "TRIGGER", displayOnly := true, display := some fileDisplay }
  | category =>
    { id := "CATEGORY", keywords := ["category"], cached := true, referenceOnly := true,
      renameable := true, display := some { referenceItems := [.title, .value] } }
  | seq => config "SEQ" ["seq"] ["seq"] (configDisplay "seqconfig" none)
  | spotanim => config "SPOTANIM" ["spotanim"] ["spotanim"] (configDisplay "spotanimconfig" none)
  | hunt => config "HUNT" ["hunt"] ["hunt"] (configDisplay "huntconfig" none)
  | loc => config "LOC" ["loc"] ["loc"] (configDisplay "locconfig" described)
  | npc => config "NPC" ["npc"] ["npc"] (configDisplay "npcconfig" described)
  | obj => config "OBJ" ["obj", "namedobj"] ["obj"] (configDisplay "objconfig" described)
  | inv => config "INV" ["inv"] ["inv"] (configDisplay "invconfig" (some ["scope=", "size="]))
  | enum => config "ENUM" ["enum"] ["enum"]
      (configDisplay "enumconfig" (some ["inputtype=", "outputtype="]))
  | param => config "PARAM" ["param"] ["param"] (configDisplay "paramconfig" (some ["type="]))
  | struct => config "STRUCT" ["struct"] ["struct"] (configDisplay "structconfig" none)
  | dbRow => config "DBROW" ["dbrow"] ["dbrow"]
      { configDisplay "dbrowconfig" (some ["table="]) with
        declarationItems := [.title, .info, .codeblock] }
  | dbTable => config "DBTABLE" ["dbtable"] ["dbtable"] (configDisplay "dbtableconfig" none)
  | dbColumn => config "DBCOLUMN" ["dbcolumn"] ["dbtable"]
      { configDisplay "dbtableconfig" (some ["column="]) with
        declarationItems := [.title, .info, .codeblock], skippedLines := 0 }
  | idk => config "IDK" ["idk", "idkit"] ["idk"] (configDisplay "idkconfig" none)
  | mesanim => config "MESANIM" ["mesanim"] ["mesanim"] (configDisplay "mesanimconfig" none)
  | interface => fileName "INTERFACE" ["interface"] ["if"] true
  | component => config "COMPONENT" ["component"] ["if"]
      { declarationItems := [.title, .info], referenceItems := [.title, .info],
        language := "interface" }
  | synth => fileName "SYNTH" ["synth"] ["synth"] true
  | model => fileName "MODEL" ["ob2", "model"] ["ob2"] true
  | midi => fileName "MIDI" ["midi"] ["mid"] false
  | stat => { id := "STAT", keywords := ["stat", "npc_stat"], displayOnly := true }
  | configKey => { id := "CONFIG_KEY", displayOnly := true, display := some fileDisplay }
  | coordinates =>
    { id := "COORDINATES", keywords := ["coord"], displayOnly := true,
      display := some { referenceItems := [.title, .value] } }
  | color => { id := "COLOR", inert := true }
  | number => { id := "NUMBER", inert := true }

def id (c : Category) : String :=
  c.profile.id

def ofId? (id : String) : Option Category :=
  all.find? fun c => c.id == id

def ofKeyword (keyword : String) : Category :=
  (all.find? fun c => c.profile.keywords.contains keyword).getD unknown

def hasDetails : Category → Bool
  | trigger | category | enum | param | dbRow | dbColumn | interface | component | synth | model
  | midi | configKey | coordinates => true
  | _ => false

end Category

end ScriptIndex
