import ScriptIndex.Text.Pieces

/-! Shapes of lines and words. These are all the grammar that the index knows: a line that does not
have the shape that a rule asks for is simply not classified by it. -/
namespace ScriptIndex.LineShape

def afterRun? (p : Char → Bool) (text : List Char) : Option (List Char) :=
  if (text.takeWhile p).isEmpty then none else some (text.dropWhile p)

def after? (c : Char) : List Char → Option (List Char)
  | d :: rest => if d = c then some rest else none
  | [] => none

/-- Whether a line starts with a script header `[trigger,name]`. The name may start with a dot and
hold colons. -/
def isTriggerLine (line : Line) : Bool :=
  (do
    let rest ← after? '[' line
    let rest ← afterRun? Text.isWordChar rest
    let rest ← after? ',' rest
    let rest := match rest with
      | '.' :: rest => rest
      | rest => rest
    let rest ← afterRun? (fun c => Text.isWordChar c || c == ':') rest
    after? ']' rest).isSome

def groupLength (text : List Char) : Nat :=
  match text with
  | '(' :: rest =>
    let inner := rest.takeWhile fun c => Text.isWordChar c || c == ',' || c == ' ' || c == '$'
    match rest.drop inner.length with
    | ')' :: _ => inner.length + 2
    | _ => 0
  | _ => 0

/-- The length of a script header: its brackets and up to two groups in parentheses. -/
def headerLength (line : Line) : Nat :=
  let brackets := (line.takeWhile (· ≠ ']')).length + 1
  let first := groupLength (line.drop brackets)
  brackets + first + groupLength (line.drop (brackets + first))

def isConfigDeclaration (line : Line) : Bool :=
  (do
    let rest ← after? '[' line
    let rest ← afterRun? (· ≠ ']') rest
    after? ']' rest).isSome

def isConfigLine (line : Line) : Bool :=
  (do
    let rest ← afterRun? Text.isWordChar line
    let rest ← after? '=' rest
    let rest ← afterRun? (· ≠ '\n') rest
    if rest = [] ∨ rest = ['\n'] then some () else none).isSome

def isCaseLine (line : Line) : Bool :=
  let rest := line.dropWhile Text.isBlank
  if "case ".toList.isPrefixOf rest then
    match rest.drop 5 with
    | c :: rest => c != '\n' && Text.hasPart " :".toList (rest.takeWhile (· ≠ '\n'))
    | [] => false
  else false

def mapSection? (line : Line) : Option String := do
  let rest ← afterRun? (· == '=') line
  let rest := rest.dropWhile Text.isBlank
  let name := rest.takeWhile Text.isWordChar
  let rest ← afterRun? Text.isWordChar rest
  let _ ← after? '=' (rest.dropWhile Text.isBlank)
  return String.ofList name

def isMapCell (word : String) : Bool :=
  match word.toList with
  | [] => false
  | [c] => Text.isDigit c
  | c :: rest => Text.isWordChar c && rest.all Text.isDigit

def isCoordinate (word : String) : Bool :=
  let parts := List.splitOn '_' word.toList
  parts.length = 5 && parts.all fun part => !part.isEmpty && part.all Text.isDigit

def isColor (word : String) : Bool :=
  match word.toList with
  | '0' :: 'x' :: digits => digits.length = 6 && digits.all Text.isHexDigit
  | _ => false

def isNumber (word : String) : Bool :=
  let parts := List.splitOn '.' word.toList
  parts.length ≤ 2 && parts.all fun part => !part.isEmpty && part.all Text.isDigit

def isLocModel (word : String) : Bool :=
  match word.toList.reverse with
  | shape :: '_' :: name =>
    (shape.isDigit || ('a' ≤ shape && shape ≤ 'z')) && !name.isEmpty && name.all Text.isWordChar
  | _ => false

def endsBlock (line : Line) : Bool :=
  line.head? == some '[' || line.head? == some '^' || line.all Text.isBlank

def infoBehind? (text : List Char) : Option (List Char) :=
  let text := match text with
    | c :: rest => if Text.isBlank c then rest else c :: rest
    | [] => []
  if "desc:".toList.isPrefixOf text || "info:".toList.isPrefixOf text then
    let info := (text.drop 5).takeWhile (· ≠ '\n')
    if info.isEmpty then none else some info
  else none

def infoComment? : Line → Option (List Char)
  | '/' :: '/' :: rest =>
    match infoBehind? rest with
    | some info => some info
    | none => infoComment? ('/' :: rest)
  | _ :: rest => infoComment? rest
  | [] => none

def typeKeywords : List String :=
  ["int", "string", "boolean", "seq", "locshape", "component", "idk", "midi", "npc_mode",
    "namedobj", "synth", "stat", "npc_stat", "fontmetrics", "enum", "loc", "model", "npc", "obj",
    "player_uid", "spotanim", "npc_uid", "inv", "category", "struct", "dbrow", "interface",
    "dbtable", "coord", "mesanim", "param", "queue", "weakqueue", "timer", "softtimer", "char",
    "dbcolumn", "proc", "label"]

def hasTypeKeyword (text : List Char) : Bool :=
  (Text.wordRuns text).any fun run => typeKeywords.contains (String.ofList run)

def withoutComment (line : Line) : Line :=
  Text.before "//".toList line

end ScriptIndex.LineShape
