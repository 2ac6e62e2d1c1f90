import ScriptIndex.ConfigKey
import ScriptIndex.LineShape
import ScriptIndex.Path
import ScriptIndex.Position
import ScriptIndex.Role
import ScriptIndex.Signature
import ScriptIndex.Trigger
import Std.Data.ExtTreeMap
import Std.Data.ExtTreeSet

namespace ScriptIndex

abbrev References := Std.ExtTreeMap String (Std.ExtTreeSet Position)

/-- A symbol of the workspace. -/
structure Symbol where
  name : String
  category : Category
  fileType : String
  packId : Option String := none
  declaration : Option Location := none
  references : References := ∅
  info : Option String := none
  signature : Option Signature := none
  block : Option String := none
  value : Option String := none
  extra : Attributes := []
  hidden : Bool := false

/-- The lines around a declaration; line `start` declares, counted from the end if it is negative. -/
structure Excerpt where
  lines : List Line
  start : Int
  deriving DecidableEq, Repr

namespace Excerpt

def line? (e : Excerpt) (i : Int) : Option Line :=
  if 0 ≤ i then e.lines[i.toNat]?
  else if 0 ≤ e.lines.length + i then e.lines[(e.lines.length + i).toNat]?
  else none

def linesFrom (e : Excerpt) (i : Int) : List Line :=
  if 0 ≤ i then e.lines.drop i.toNat else e.lines.drop (e.lines.length + i).toNat

end Excerpt

/-- Why no symbol could be built. -/
inductive BuildError where
  /-- The excerpt has no such line. -/
  | noSuchLine
  /-- A coordinate has too few parts. -/
  | missingPart
  /-- A part of a coordinate is no number. -/
  | notANumber
  /-- The name of a script is no text. -/
  | notAText
  deriving DecidableEq, Repr

namespace Symbol

def key? (name : String) (c : Category) : Option String :=
  if name = "" then none else some (name ++ c.id)

def referenceCount (s : Symbol) : Nat :=
  s.references.foldl (fun n _ positions => n + positions.size) 0

def infoAbove (e : Excerpt) : Except BuildError (Option String) :=
  if e.start < 1 then .ok none
  else match e.line? (e.start - 1) with
    | none => .error .noSuchLine
    | some line =>
      match (LineShape.infoComment? line).map Text.strip with
      | some (c :: text) => .ok (some (String.ofList (c :: text)))
      | _ => .ok none

def signatureOn (e : Excerpt) : Except BuildError (Option Signature) :=
  if e.start < e.lines.length then
    match e.line? e.start with
    | none => .error .noSuchLine
    | some line => .ok (Signature.parse? line)
  else .ok none

def isShown (inclusions : Option (List String)) (line : Line) : Bool :=
  !"//".toList.isPrefixOf line
    && match inclusions with
      | some (first :: rest) => (first :: rest).any fun mark => mark.toList.isPrefixOf line
      | _ => true

def codeOf (c : Category) (d : Display) (e : Excerpt) : Except BuildError String := do
  let start := e.start + d.skippedLines
  let first ←
    if c = .constant ∧ start < e.lines.length then
      match e.line? start with
      | none => .error .noSuchLine
      | some [] => .ok []
      | some line => .ok [line]
    else .ok []
  let body := ((e.linesFrom start).takeWhile fun line => !LineShape.endsBlock line).filter
    (isShown d.inclusions)
  return String.ofList (Text.joinLines (first ++ body))

def readExcerpt (e : Excerpt) (s : Symbol) : Except BuildError Symbol := do
  let info ← infoAbove e
  match s.category.profile.display with
  | none => return { s with info := info }
  | some d =>
    let signature ← if d.shows .signature then signatureOn e else .ok none
    let block ← if d.shows .codeblock then some <$> codeOf s.category d e else .ok none
    return { s with info := info, signature := signature, block := block }

def lineBehind? (mark : String) (block : String) : Option String :=
  (Text.cut? mark.toList block.toList).map fun (_, after) =>
    String.ofList (after.takeWhile fun c => c ≠ '\r' ∧ c ≠ '\n')

private def textOrNull (s : Option String) : Datum :=
  (s.map Datum.text).getD .null

def splitColon (name : String) : String × String :=
  match Text.cut? [':'] name.toList with
  | some (before, after) => (String.ofList before, String.ofList after)
  | none => (name, "")

def describeCategory (s : Symbol) : Symbol :=
  match s.extra.lookup "matchId", s.extra.lookup "categoryName" with
  | some target, some name =>
    if target.isTruthy && name.isTruthy then
      { s with value := some ("This script applies to all <b>" ++ target.display
          ++ "</b> with `category=" ++ name.display ++ "`") }
    else s
  | _, _ => s

def describeFile (s : Symbol) : Symbol :=
  { s with info := some ("Refers to the file <b>" ++ s.name ++ "." ++ s.fileType ++ "</b>") }

def describeReference (s : Symbol) : Symbol :=
  match s.category with
  | .category => s.describeCategory
  | .interface | .synth | .model | .midi => s.describeFile
  | _ => s

def describeEnum (s : Symbol) : Symbol :=
  let block := s.block.getD ""
  { s with extra := [("inputType", textOrNull (lineBehind? "inputtype=" block)),
      ("outputType", textOrNull (lineBehind? "outputtype=" block))] }

def describeParam (s : Symbol) : Symbol :=
  let type := (lineBehind? "type=" (s.block.getD "")).getD ""
  { s with extra := [("dataType", .text (if type = "" then "int" else type))] }

def describeConfigKey (s : Symbol) : Symbol :=
  match ConfigKey.info? s.name s.fileType with
  | some info => { s with info := some (Text.replace "$TYPE" s.fileType info) }
  | none => { s with hidden := true }

def describeTrigger (s : Symbol) : Except BuildError Symbol :=
  if s.extra.isEmpty then .ok s
  else match Trigger.template? s.name, (s.extra.lookup "triggerName").getD (.text "") with
    | none, _ => .ok s
    | some info, .text script => .ok { s with info := some (Text.replace "$NAME" script info) }
    | some _, _ => .error .notAText

def describeComponent (s : Symbol) : Symbol :=
  let (interface, component) := splitColon s.name
  { s with name := component, info := some ("A component of the <b>" ++ interface ++ "</b> interface") }

def describeRow (s : Symbol) : Symbol :=
  match s.block with
  | none | some "" => s
  | some block =>
    let table := match List.splitOn '=' block.toList with
      | _ :: table :: _ => String.ofList table
      | _ => ""
    { s with info := some ("A row in the <b>" ++ table ++ "</b> table"), block := none,
             extra := [("table", .text table)] }

def describeColumn (s : Symbol) : Symbol :=
  let (table, column) := splitColon s.name
  let s := { s with name := column, info := some ("A column of the <b>" ++ table ++ "</b> table") }
  match s.block with
  | none | some "" => s
  | some block =>
    let line := block.toList.takeWhile fun c => c ≠ '\r' ∧ c ≠ '\n'
    let fields := line.drop ("column=".length + column.length + 1)
    let types := ((List.splitOn ',' fields).filter (· ≠ [])).map String.ofList
    { s with extra := [("dataTypes", .list (types.map .text))],
             block := some ("Field types: " ++ ", ".intercalate types) }

private def partOf (parts : List (List Char)) (i : Nat) : Except BuildError Int :=
  match parts[i]? with
  | none => .error .missingPart
  | some part =>
    match Text.int? part with
    | none => .error .notANumber
    | some n => .ok n

def describeCoordinate (s : Symbol) : Except BuildError Symbol := do
  let parts := List.splitOn '_' s.name.toList
  let squareX ← partOf parts 1
  let tileX ← partOf parts 3
  let squareZ ← partOf parts 2
  let tileZ ← partOf parts 4
  let x := squareX * 64 + tileX
  let z := squareZ * 64 + tileZ
  return { s with value := some s!"Absolute coordinates: ({x}, {z})" }

def describe (s : Symbol) : Except BuildError Symbol :=
  match s.category with
  | .coordinates => s.describeCoordinate
  | .trigger => s.describeTrigger
  | .enum => .ok s.describeEnum
  | .param => .ok s.describeParam
  | .configKey => .ok s.describeConfigKey
  | .component => .ok s.describeComponent
  | .dbRow => .ok s.describeRow
  | .dbColumn => .ok s.describeColumn
  | _ => .ok s.describeReference

/-- A symbol as its declaration shows it. -/
def declared (name : String) (role : Role) (location : Location) (excerpt : Option Excerpt) :
    Except BuildError Symbol := do
  let bare : Symbol :=
    { name := name, category := role.category, declaration := some location,
      fileType := (Path.parse location.file).extension, extra := role.extra }
  let read ← match excerpt with
    | some e => bare.readExcerpt e
    | none => .ok bare
  read.describe

def bare (name : String) (c : Category) : Symbol :=
  { name := name, category := c, fileType := c.profile.fileTypes.head?.getD "rs2" }

def placeholder (name : String) (role : Role) : Symbol :=
  if role.category.profile.referenceOnly then
    { bare name role.category with extra := role.extra }.describeReference
  else bare name role.category

end Symbol

end ScriptIndex
