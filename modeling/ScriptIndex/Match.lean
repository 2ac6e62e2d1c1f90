import ScriptIndex.Rules

/-! Classified words. After a rule has said what a word is, the name is completed where its category
asks for it, and what was stripped from the written word is noted, so that a rename can put it back. -/
namespace ScriptIndex

/-- What was made of a written word: the name it stands for, the column where its own part starts,
what was stripped on either side, whether the name differs from the word, whether it is a certificate,
and the id that a pack line gives to it. -/
structure Annotations where
  word : String
  start : Nat
  isModified : Bool := false
  front : String := ""
  back : String := ""
  isCert : Bool := false
  packId : Option String := none
  deriving DecidableEq, Repr

/-- A classified word. -/
structure Match where
  role : Role
  annotations : Annotations
  context : WordContext
  deriving Repr

namespace Annotations

def plain (w : Word) : Annotations :=
  { word := w.value, start := w.start }

def qualified (w : Word) (qualifier : String) : Annotations :=
  { word := qualifier ++ ":" ++ w.value, start := w.start, isModified := true }

def withoutFront (w : Word) (front : String) : Annotations :=
  { word := String.ofList (w.value.toList.drop front.length), start := w.start + front.length,
    isModified := true, front := front }

def withoutBack (w : Word) (n : Nat) : Annotations :=
  let size := w.value.toList.length - n
  { word := String.ofList (w.value.toList.take size), start := w.start, isModified := true,
    back := String.ofList (w.value.toList.drop size) }

private def isQualified (w : Word) : Bool :=
  w.value.toList.contains ':'

private def startsWith (w : Word) (front : String) : Bool :=
  front.toList.isPrefixOf w.value.toList

/-- The table that a short column name belongs to: in a table file the table above, elsewhere that of
the row above. -/
def tableOf? [KeyOrder] (ctx : WordContext) (index : Index) : Option String := do
  let required : Category := if ctx.dialect = "dbtable" then .dbTable else .dbRow
  let parent ← index.symbols.parent? ctx.line.file ctx.line.number (· = required)
  let table ←
    if ctx.dialect = "dbrow" then
      (parent.extra.lookup "table").bind fun table =>
        if table.isTruthy then some table.display else none
    else some parent.name
  if table = "" then none else some table

def ofWord? [KeyOrder] (c : Category) (ctx : WordContext) (index : Index) : Option Annotations :=
  let w := ctx.word
  match c with
  | .component =>
    some (if isQualified w then plain w else qualified w ctx.line.fileName.name)
  | .dbColumn =>
    if isQualified w then some (plain w) else (tableOf? ctx index).map (qualified w)
  | .obj =>
    some (if startsWith w "cert_" then { withoutFront w "cert_" with isCert := true } else plain w)
  | .category => some (if startsWith w "_" then withoutFront w "_" else plain w)
  | .model => some (if LineShape.isLocModel w.value then withoutBack w 2 else plain w)
  | _ => some (plain w)

def packIdOf? (c : Category) (ctx : WordContext) : Option String :=
  if ctx.dialect = "pack" ∧ ctx.word.index = 1 ∧ c ≠ .unknown then
    ctx.line.words.head?.map Word.value
  else none

/-- The annotations of a word in a category. -/
def of? [KeyOrder] (c : Category) (ctx : WordContext) (index : Index) : Option Annotations :=
  (ofWord? c ctx index).map fun a => { a with packId := packIdOf? c ctx }

end Annotations

namespace Match

def word (m : Match) : String :=
  m.annotations.word

def ofContext? [KeyOrder] (ctx : WordContext) (index : Index) : Option Match :=
  if ctx.word.value = "null" then none
  else do
    let role ← Rule.classify ctx index
    let annotations ← Annotations.of? role.category ctx index
    return ⟨role, annotations, ctx⟩

/-- Classifies the word on a column of a line. -/
def onColumn? [KeyOrder] (index : Index) (line : Line) (number : Int) (file : String) (column : Int) :
    Option Match :=
  if line = [] ∨ file = "" then none
  else do
    let context := LineContext.ofLine line number file
    let word ← Word.at? context.words column
    ofContext? ⟨context, word, column.toNat⟩ index

def onLine [KeyOrder] (index : Index) (line : Line) (number : Int) (file : String) : List (Option Match) :=
  if line = [] ∨ file = "" then []
  else
    let context := LineContext.ofLine line number file
    context.words.map fun word => ofContext? ⟨context, word, word.start⟩ index

end Match

end ScriptIndex
