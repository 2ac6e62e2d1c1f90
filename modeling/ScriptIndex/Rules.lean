import ScriptIndex.CallSite
import ScriptIndex.ConfigKey
import ScriptIndex.ConfigLine
import ScriptIndex.Context
import ScriptIndex.Index
import ScriptIndex.Role
import ScriptIndex.Trigger

/-! The rules that classify a word. A rule reads the word, its line and the index, and either says what
the word is or leaves it to the next rule. To say that a word is nothing known is an answer too. -/
namespace ScriptIndex.Rules

def unknown : Role := .reference .unknown

def pack (ctx : WordContext) : Option Role :=
  if ctx.dialect = "pack" ∧ ctx.word.index = 1 then
    let name := ctx.line.fileName.name
    some <| .reference <|
      if Category.globalVar.profile.fileTypes.contains name then .globalVar
      else if name = "interface" ∧ ctx.word.value.toList.contains ':' then .component
      else Category.ofKeyword name
  else none

def literal (ctx : WordContext) : Option Role :=
  let word := ctx.word.value
  if LineShape.isCoordinate word then some (.reference .coordinates)
  else if LineShape.isColor word then some (.reference .color)
  else if LineShape.isNumber word then some (.reference .number)
  else none

def engineFile : String := "engine.rs2"

def command (ctx : WordContext) (index : Index) : Option Role :=
  match index.symbols.get? ctx.word.value .command with
  | none => none
  | some symbol =>
    if (Path.parse ctx.line.file).name = engineFile ∧ ctx.word.index = 1
        ∧ LineShape.isTriggerLine ctx.line.text then
      some (.declaration .command)
    else if (symbol.signature.any fun s => !s.params.isEmpty) && ctx.charAfter? != some '(' then none
    else some (.reference .command)

def localVar (ctx : WordContext) : Option Role :=
  if ctx.charBefore? = some '$' then
    match ctx.previous? with
    | none => some (.reference .localVar)
    | some word =>
      let keyword := word.value.toList
      let keyword := if "def_".toList.isPrefixOf keyword then keyword.drop 4 else keyword
      if LineShape.hasTypeKeyword keyword then some (.declaration .localVar)
      else some (.reference .localVar)
  else none

def sigil (ctx : WordContext) : Option Role :=
  match ctx.charBefore? with
  | some '^' =>
    some (if ctx.dialect = "constant" then .declaration .constant else .reference .constant)
  | some '%' => some (.reference .globalVar)
  | some '@' => if ctx.charAfter? = some '@' then none else some (.reference .label)
  | some '~' => some (.reference .proc)
  | some ',' =>
    if ctx.previous?.any fun word => word.value == "p" then some (.reference .mesanim) else none
  | _ => none

def trigger (ctx : WordContext) : Option Role :=
  if ctx.dialect = "rs2" ∧ ctx.word.index ≤ 1 ∧ LineShape.isTriggerLine ctx.line.text then
    match ctx.line.words with
    | first :: second :: _ =>
      match Trigger.ofName? first.value with
      | none => none
      | some found =>
        if ctx.word.index = 0 then
          some { Role.reference .trigger with extra := [("triggerName", .text second.value)] }
        else match ctx.word.value.toList with
          | '_' :: name =>
            some { Role.reference .category with
              extra := [("matchId", .text found.category.id),
                ("categoryName", .text (String.ofList name))] }
          | _ => some { category := found.category, declares := found.declares }
    | _ => none
  else none

def declaredIn? (dialect : String) : Option Category :=
  [("varp", Category.globalVar), ("varbit", .globalVar), ("varn", .globalVar), ("vars", .globalVar),
    ("obj", .obj), ("loc", .loc), ("npc", .npc), ("param", .param), ("seq", .seq),
    ("struct", .struct), ("dbrow", .dbRow), ("dbtable", .dbTable), ("enum", .enum),
    ("hunt", .hunt), ("inv", .inv), ("spotanim", .spotanim), ("idk", .idk),
    ("mesanim", .mesanim), ("if", .component)].lookup dialect

def typed (types : List Datum) (place : Option Nat) : Role :=
  match place.bind (types[·]?) with
  | some (.text keyword) => .reference (Category.ofKeyword keyword)
  | _ => unknown

def anyCategory (_ : Category) : Bool := true

def paramLine (ctx : WordContext) (index : Index) : Role :=
  if ctx.word.index = 1 then .reference .param
  else if ctx.word.index = 2 then
    match ctx.line.words[1]?.bind fun word => index.symbols.get? word.value .param with
    | some param => typed [(param.extra.lookup "dataType").getD .null] (some 0)
    | none => unknown
  else unknown

def valLine [KeyOrder] (ctx : WordContext) (index : Index) : Role :=
  match index.symbols.parent? ctx.line.file ctx.line.number anyCategory with
  | some enum =>
    typed [(enum.extra.lookup "inputType").getD .null, (enum.extra.lookup "outputType").getD .null]
      (ConfigLine.place? ctx.line.text ctx.cursor)
  | none => unknown

def columnName [KeyOrder] (ctx : WordContext) (index : Index) (name : String) : String :=
  if name.toList.contains ':' then name
  else match index.symbols.parent? ctx.line.file ctx.line.number anyCategory with
    | some row =>
      match row.extra.lookup "table" with
      | some table => if table.isTruthy then table.display ++ ":" ++ name else name
      | none => name
    | none => name

def dataLine [KeyOrder] (ctx : WordContext) (index : Index) : Role :=
  if ctx.word.index = 1 then .reference .dbColumn
  else match ctx.line.words[1]? with
    | none => unknown
    | some word =>
      match index.symbols.get? (columnName ctx index word.value) .dbColumn with
      | some column =>
        if column.extra.isEmpty then unknown
        else
          let types := ((column.extra.lookup "dataTypes").bind Datum.members?).getD []
          typed (.text column.name :: types) (ConfigLine.place? ctx.line.text ctx.cursor)
      | none => unknown

def configLine [KeyOrder] (ctx : WordContext) (index : Index) : Option Role :=
  match LineShape.isConfigLine ctx.line.text, ctx.line.words with
  | true, key :: _ =>
    if ctx.word.index = 0 then some (.reference .configKey)
    else match key.value with
      | "param" => some (paramLine ctx index)
      | "val" => some (valLine ctx index)
      | "data" => some (dataLine ctx index)
      | key => do
        let slots ← ConfigKey.slots? key ctx.dialect
        let place ← ConfigLine.place? ctx.line.text ctx.cursor
        let slot ← slots[place]?
        return { category := Category.ofKeyword slot.keyword, declares := slot.declares }
  | _, _ => none

def config [KeyOrder] (ctx : WordContext) (index : Index) : Option Role :=
  if LineShape.isConfigDeclaration ctx.line.text then
    (declaredIn? ctx.dialect).map .declaration
  else configLine ctx index

def map (ctx : WordContext) (index : Index) : Option Role :=
  if ctx.dialect = "jm2" then
    let word := ctx.word.value
    if LineShape.isMapCell word || ["OBJ", "LOC", "NPC"].contains word then some unknown
    else match index.sections.get? ctx.line.number ctx.line.file with
      | some name => some (.reference (Category.ofKeyword (Text.lower name)))
      | none => some unknown
  else none

def switchCase (ctx : WordContext) (index : Index) : Option Role :=
  if ctx.dialect = "rs2" ∧ ctx.word.index ≠ 0 ∧ ctx.word.value ≠ "default"
      ∧ LineShape.isCaseLine ctx.line.text
      ∧ (Text.find? " :".toList ctx.line.text).any (ctx.cursor < ·) then
    match (index.switches.get? ctx.line.number ctx.line.file).bind Category.ofId? with
    | some operand => some (.reference operand)
    | none => some unknown
  else none

def queueOffset? (name : String) : Option Nat :=
  [("queue", 2), ("longqueue", 3)].lookup name

def paramRole (symbol : Option Symbol) (place : Nat) : Option Role := do
  let signature ← (← symbol).signature
  let param ← signature.params[place]?
  return .reference param.category

def returnRole (ctx : WordContext) (index : Index) (place : Nat) : Option Role := do
  let key ← index.returns.get? ctx.line.number ctx.line.file
  let signature ← (← index.symbols.symbols[key]?).signature
  let result ← signature.returns[place]?
  return .reference result

def argument (ctx : WordContext) (index : Index) : Option Role :=
  match CallSite.find? ctx.line.text ctx.cursor ctx.line.words with
  | some (some callee, place) =>
    let name := callee.value
    let before := if callee.start = 0 then none else ctx.line.text[callee.start - 1]?
    if name = "return" then returnRole ctx index place
    else match queueOffset? name with
      | some offset =>
        if place < offset then paramRole (index.symbols.get? name .command) place
        else
          let queued := Word.at? ctx.line.words (callee.last + 2 : Nat)
          paramRole (queued.bind fun word => index.symbols.get? word.value .queue) (place - offset)
      | none =>
        let kind : Category :=
          if before = some '@' then .label else if before = some '~' then .proc else .command
        paramRole (index.symbols.get? name kind) place
  | _ => none

def parameters (ctx : WordContext) (index : Index) : Option Role :=
  if ctx.dialect = "rs2" then argument ctx index else none

end Rules

/-- A rule with its name; rules with a smaller rank are asked first. -/
structure Rule where
  rank : Nat
  name : String
  ask : WordContext → Index → Option Role

namespace Rule

def all [KeyOrder] : List Rule :=
  [⟨1000, "pack", fun ctx _ => Rules.pack ctx⟩,
    ⟨2000, "literal", fun ctx _ => Rules.literal ctx⟩,
    ⟨3000, "command", Rules.command⟩,
    ⟨4000, "local_var", fun ctx _ => Rules.localVar ctx⟩,
    ⟨5000, "prev_char", fun ctx _ => Rules.sigil ctx⟩,
    ⟨6000, "trigger", fun ctx _ => Rules.trigger ctx⟩,
    ⟨7000, "config", Rules.config⟩,
    ⟨7500, "map", Rules.map⟩,
    ⟨8000, "switch_case", Rules.switchCase⟩,
    ⟨9000, "parameters", Rules.parameters⟩]

def named? [KeyOrder] (name : String) : Option Rule :=
  all.find? fun rule => rule.name == name

def classify [KeyOrder] (ctx : WordContext) (index : Index) : Option Role :=
  all.findSome? fun rule => rule.ask ctx index

end Rule

end ScriptIndex
