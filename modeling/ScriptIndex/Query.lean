import ScriptIndex.Disk
import ScriptIndex.Match
import ScriptIndex.Text.Glob

namespace ScriptIndex.Query

def matchAt? [KeyOrder] (index : Index) (document : String) (line : Int) (file : String) (column : Int) :
    Option Match :=
  if 0 ≤ line then do
    let text ← (Text.splitLines document.toList)[line.toNat]?
    Match.onColumn? index text line file column
  else none

/-- The local variable with a name, without its `$`, in the script around a line. -/
def localAt? (index : Index) (line : Int) (name : String) : Option Variable := do
  let block ← index.scripts.at? line
  block.named? ("$" ++ name)

def visibleLength (name : String) : Nat :=
  match Text.find? [':'] name.toList with
  | some n => name.length - (n + 1)
  | none => name.length

private def isNothing (m : Match) : Bool :=
  m.role.category.profile.inert || m.role.category.profile.displayOnly

def definition? [KeyOrder] (index : Index) (document : String) (line : Int) (file : String) (column : Int) :
    Option Location := do
  let m ← matchAt? index document line file column
  if isNothing m then none
  else if m.role.declares || m.role.category.profile.referenceOnly then
    some (.at file line column 0)
  else if m.role.category = .localVar then (localAt? index line m.word).map Variable.declaration
  else (← index.symbols.get? m.word m.role.category).declaration

def places (s : Symbol) (length : Nat) : List Location :=
  s.references.toList.flatMap fun (file, positions) =>
    positions.toList.map fun p => ⟨file, p.span length⟩

/-- Where the symbol of the word at a place is referred to. A declaration that is referred to nowhere
else has nothing to show. -/
def references [KeyOrder] (index : Index) (document : String) (line : Int) (file : String) (column : Int) :
    List Location :=
  match matchAt? index document line file column with
  | none => []
  | some m =>
    if isNothing m then []
    else if m.role.category = .localVar then
      ((localAt? index line m.word).map Variable.references).getD []
    else match index.symbols.get? m.word m.role.category with
      | none => []
      | some s =>
        let found := places s (visibleLength m.word)
        if m.role.declares && found.length == 1 then [] else found

/-- Why a word cannot be renamed. -/
inductive RenameError where
  | noMatch
  | unsupported (c : Category)
  | notIndexed
  /-- The old name cannot be searched for, since it is an absolute path. -/
  | rootedName
  /-- The old name cannot be searched for, since it has stars that mean nothing. -/
  | wildName
  /-- The new name is no name of a file. -/
  | badFileName
  deriving DecidableEq, Repr

def RenameError.message : RenameError → String
  | .noMatch => "Cannot rename"
  | .unsupported c => c.id ++ " renaming not supported"
  | .notIndexed => "Cannot find any references to rename"
  | .rootedName => "Non-relative patterns are unsupported"
  | .wildName => "Invalid pattern: '**' can only be an entire path component"
  | .badFileName => "Invalid name"

def renameable [KeyOrder] (index : Index) (document : String) (line : Int) (file : String) (column : Int) :
    Except RenameError Match :=
  match matchAt? index document line file column with
  | none => .error .noMatch
  | some m =>
    let profile := m.role.category.profile
    if !profile.renameable || profile.inert then .error (.unsupported m.role.category)
    else if m.role.category ≠ .localVar ∧ !index.symbols.contains m.word m.role.category then
      .error .notIndexed
    else .ok m

def prepareRename [KeyOrder] (index : Index) (document : String) (line : Int) (file : String)
    (column : Int) :
    Except RenameError (Location × String) := do
  let m ← renameable index document line file column
  let w := m.context.word
  return (.at file line w.start w.value.length, m.word)

/-- A text to be written in the place of a stretch. -/
structure Edit where
  location : Location
  text : String
  deriving DecidableEq, Repr

/-- The changes that rename a symbol: edits of texts, and files with their new paths. -/
structure RenamePlan where
  edits : List Edit := []
  files : List (String × String) := []
  deriving DecidableEq, Repr

/-- The name to write at every reference. What was stripped from the written word stays where it is,
so it is taken off the new name, and so is a qualifier. -/
def adjustName (a : Annotations) (name : String) : String :=
  let cs := name.toList
  let cs := if a.front.toList.isPrefixOf cs then cs.drop a.front.toList.length else cs
  let cs := if a.back.toList.isSuffixOf cs then cs.take (cs.length - a.back.toList.length) else cs
  match Text.cut? [':'] cs with
  | some (_, after) => String.ofList after
  | none => String.ofList cs

def edits (s : Symbol) (length : Nat) (text : String) : List Edit :=
  s.references.toList.flatMap fun (file, positions) =>
    (positions.toList.mergeSort fun p q => p.encode ≤ q.encode).map fun p => ⟨⟨file, p.span length⟩, text⟩

/-- The name of a file that goes with a symbol, for the symbol's new name. A model keeps the
character for its shape. -/
def newFileName? (c : Category) (ending old new name : String) : Option String :=
  let tail := ("." ++ ending).toList
  if name.toList = old.toList ++ tail then some (new ++ "." ++ ending)
  else if c = .model then
    match name.toList.drop old.toList.length with
    | '_' :: shape :: rest =>
      if old.toList.isPrefixOf name.toList ∧ rest = tail then
        some (new ++ "_" ++ String.ofList [shape] ++ "." ++ ending)
      else none
    | _ => none
  else none

def isFileName (name : String) : Bool :=
  !(Path.parse name).isAbsolute && (Path.parse name).parts.length == 1

def fileRenames (root : Option Path) (d : Disk) (c : Category) (old new : String) :
    Except RenameError (List (String × String)) :=
  match root, c.profile.renamesFile, c.profile.fileTypes.head? with
  | some root, true, some ending =>
    let pattern := old ++ "*." ++ ending
    let parts := (List.splitOn '/' pattern.toList)
    if pattern.toList.head? = some '/' then .error .rootedName
    else if parts.any fun part => part ≠ ['*', '*'] ∧ Text.hasPart ['*', '*'] part then
      .error .wildName
    else
      let found := (d.placesBelow root.parts).filterMap fun path =>
        let path := Path.mk root.root path
        if parts.length = 1 ∧ Text.fits pattern path.name then
          (newFileName? c ending old new path.name).map fun name => (path, name)
        else none
      if found.any fun (_, name) => !isFileName name then .error .badFileName
      else .ok (found.map fun (path, name) => (path.text, (path.withName name).text))
  | _, _, _ => .ok []

/-- The changes that rename the word at a place. -/
def rename [KeyOrder] (index : Index) (root : Option Path) (d : Disk) (document : String) (line : Int)
    (file : String) (column : Int) (newName : String) : Except RenameError RenamePlan := do
  let m ← renameable index document line file column
  if m.role.category = .localVar then
    let places := ((localAt? index line m.word).map Variable.references).getD []
    return { edits := places.map fun location => ⟨location, "$" ++ newName⟩ }
  else
    let name := adjustName m.annotations newName
    let changes := match index.symbols.get? m.word m.role.category with
      | some s => edits s (visibleLength m.word) name
      | none => []
    return { edits := changes, files := ← fileRenames root d m.role.category m.word name }

end ScriptIndex.Query
