import ScriptIndex.LineShape
import ScriptIndex.Position
import ScriptIndex.Signature
import ScriptIndex.Word

/-! The scripts of a file and their local variables. A script reaches from its `[trigger,name]` header
to the next one; its variables are the parameters in the header and those that `def_<type> $name`
declares. -/
namespace ScriptIndex

/-- A local variable: its type, whether it is a parameter, and where it stands. The references start
with the declaration. -/
structure Variable where
  type : String
  isParameter : Bool
  declaration : Location
  references : List Location
  deriving DecidableEq, Repr

def Variable.category (v : Variable) : Category :=
  Category.ofKeyword v.type

/-- A script: its first line, the two names in its header, the types of its results, and its
variables in the order of their first declaration, by their names with the `$`. -/
structure ScriptBlock where
  start : Nat
  trigger : String
  name : String
  returns : List String
  locals : List (String × Variable)
  deriving DecidableEq, Repr

namespace ScriptBlock

def returnCategories (b : ScriptBlock) : List Category :=
  b.returns.map Category.ofKeyword

def named? (b : ScriptBlock) (name : String) : Option Variable :=
  b.locals.lookup name

structure Code where
  line : Nat
  column : Nat
  text : Line
  deriving DecidableEq, Repr

/-- The text of a script: its first line, its header, and the code behind it. -/
structure Source where
  start : Nat
  header : Line
  code : List Code
  deriving DecidableEq, Repr

def split (number : Nat) : List Line → List Code × List Source
  | [] => ([], [])
  | line :: rest =>
    let (code, sources) := split (number + 1) rest
    if LineShape.isTriggerLine line then
      let n := LineShape.headerLength line
      ([], ⟨number, line.take n, ⟨number, n, line.drop n⟩ :: code⟩ :: sources)
    else (⟨number, 0, line⟩ :: code, sources)

/-- What happens to a variable in a script. -/
inductive Event where
  | declared (name type : String) (isParameter : Bool) (location : Location)
  | mentioned (name : String) (location : Location)
  deriving DecidableEq, Repr

def group? (text : List Char) : Option (Nat × List Char) := do
  let opening ← text.idxOf? '('
  let closing ← text.idxOf? ')'
  if opening + 1 < closing then some (opening + 1, (text.take closing).drop (opening + 1)) else none

def parameterEvents (file : String) (line : Nat) (header : Line) (cursor : Nat) :
    List (List Char) → List Event
  | [] => []
  | piece :: pieces =>
    let rest := parameterEvents file line header (cursor + piece.length + 1) pieces
    match Parameter.parse? piece with
    | some p =>
      let column := cursor + (Text.find? p.name.toList (header.drop cursor)).getD 0
      .declared p.name p.type true (.at file line column p.name.length) :: rest
    | none => rest

def headerEvents (file : String) (line : Nat) (header : Line) : List Event :=
  match group? header with
  | some (cursor, text) => parameterEvents file line header cursor (List.splitOn ',' text)
  | none => []

def isVariable (w : Word) : Bool :=
  w.value.toList.head? == some '$'

def definedType? (w : Word) : Option String :=
  if "def_".toList.isPrefixOf w.value.toList then some (String.ofList (w.value.toList.drop 4)) else none

def wordEvents (file : String) (line column : Nat) (previous : Option Word) : List Word → List Event
  | [] => []
  | w :: rest =>
    let events := wordEvents file line column (some w) rest
    if isVariable w then
      let location := Location.at file line (w.start + column : Nat) w.value.length
      match previous.bind definedType? with
      | some type => .declared w.value type false location :: events
      | none => .mentioned w.value location :: events
    else events

def codeEvents (file : String) (c : Code) : List Event :=
  wordEvents file c.line c.column none (Word.ofLineWithVariables (LineShape.withoutComment c.text))

def events (file : String) (s : Source) : List Event :=
  headerEvents file s.start s.header ++ s.code.flatMap (codeEvents file)

def insert (name : String) (v : Variable) : List (String × Variable) → List (String × Variable)
  | [] => [(name, v)]
  | entry :: rest => if entry.1 = name then (name, v) :: rest else entry :: insert name v rest

def apply (locals : List (String × Variable)) : Event → List (String × Variable)
  | .declared name type isParameter location =>
    insert name ⟨type, isParameter, location, [location]⟩ locals
  | .mentioned name location =>
    locals.map fun entry =>
      if entry.1 = name then
        (entry.1, { entry.2 with references := entry.2.references ++ [location] })
      else entry

def names (header : Line) : String × String :=
  let inner := (header.drop 1).takeWhile (· ≠ ']')
  match Text.cut? [','] inner with
  | some (trigger, name) => (String.ofList trigger, String.ofList name)
  | none => (String.ofList inner, "")

def returnTypes (header : Line) : List String :=
  match header.idxOf? ')' with
  | none => []
  | some closing =>
    match group? (header.drop (closing + 1)) with
    | some (_, text) => (List.splitOn ',' text).map fun piece => String.ofList (Text.strip piece)
    | none => []

def ofSource (file : String) (s : Source) : ScriptBlock where
  start := s.start
  trigger := (names s.header).1
  name := (names s.header).2
  returns := returnTypes s.header
  locals := (events file s).foldl apply []

def ofLines (file : String) (lines : List Line) : List ScriptBlock :=
  (split 0 lines).2.map (ofSource file)

end ScriptBlock

/-- The scripts of the file that the editor shows. -/
structure ScriptCache where
  file : Option String := none
  blocks : List ScriptBlock := []
  deriving DecidableEq, Repr

namespace ScriptCache

def hasEnding (ending file : String) : Bool :=
  ending.toList.isSuffixOf file.toList

/-- Reads the scripts of a file anew. Only script files have any. -/
def ofText (file : Option String) (text : Option String) : ScriptCache where
  file := file
  blocks :=
    match file, text with
    | some file, some text =>
      if hasEnding ".rs2" file then ScriptBlock.ofLines file (Text.splitLines text.toList) else []
    | _, _ => []

def at? (s : ScriptCache) (line : Int) : Option ScriptBlock :=
  (s.blocks.filter fun b => (b.start : Int) ≤ line).getLast?

end ScriptCache

end ScriptIndex
