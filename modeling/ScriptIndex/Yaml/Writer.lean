import ScriptIndex.Yaml.Reader

namespace ScriptIndex.Yaml

def quotedChar (c : Char) : List Char :=
  if c = '"' ∨ c = '\\' then ['\\', c]
  else if Text.isPrintable c then [c]
  else if c.toNat < 0x100 then ['\\', 'x'] ++ Text.hex 2 c.toNat
  else if c.toNat < 0x10000 then ['\\', 'u'] ++ Text.hex 4 c.toNat
  else ['\\', 'U'] ++ Text.hex 8 c.toNat

def quoted (s : String) : String :=
  String.ofList ('"' :: s.toList.flatMap quotedChar ++ ['"'])

def number (x : Float) : String :=
  match Decimal.Double.ofFloat x with
  | .nan => ".nan"
  | .infinite negative => if negative then "-.inf" else ".inf"
  | .finite .. =>
    let text := (Decimal.ofFloat x).toList
    if text.contains '.' then String.ofList text
    else String.ofList (text.takeWhile (· ≠ 'e') ++ ['.', '0'] ++ text.dropWhile (· ≠ 'e'))

def keyText : Datum.Key → String
  | .text s => quoted s
  | .null => "null"
  | .bool b => if b then "true" else "false"
  | .int n => toString n
  | .float x => number x
  | .moment m => m.display

def marked (key : String) : String :=
  if key.length < 1000 then key else "? " ++ key ++ " "

def inline : Datum → String
  | .null => "null"
  | .bool b => if b then "true" else "false"
  | .int n => toString n
  | .float x => number x
  | .text s => quoted s
  | .moment m => m.display
  | .list items => "[" ++ ", ".intercalate (inlineItems items) ++ "]"
  | .map entries => "\x7b" ++ ", ".intercalate (inlineEntries entries) ++ "\x7d"
where
  /-- The items of a list. -/
  inlineItems : List Datum → List String
    | [] => []
    | item :: items => inline item :: inlineItems items
  /-- The entries of a mapping. -/
  inlineEntries : List (Datum.Key × Datum) → List String
    | [] => []
    | (key, value) :: entries => (marked (keyText key) ++ ": " ++ inline value) :: inlineEntries entries

/-- Whether a text may stand without quotes: it is short, has letters and underscores only, and stands for
itself. -/
def isBare (s : String) : Bool :=
  s.length < 1000 && s.toList.all (fun c => c.isAlpha || c == '_') && (meaning s matches .value (.text _))

/-- The text of settings: a line for the name of each section, and an indented line for each of its
entries, if all names may stand without quotes. -/
def render (d : Datum) : String :=
  match d with
  | .map (entry :: entries) =>
    match (entry :: entries).mapM titled? with
    | some sections => String.join sections
    | none => inline d ++ "\n"
  | d => inline d ++ "\n"
where
  /-- The name of a setting or a section. -/
  name? : Datum.Key → Option String
    | .text s => if isBare s then some s else none
    | _ => none
  /-- The line of a setting. -/
  line? (entry : Datum.Key × Datum) : Option String := do
    return "  " ++ (← name? entry.1) ++ ": " ++ inline entry.2 ++ "\n"
  /-- The lines of a section. -/
  titled? : Datum.Key × Datum → Option String
    | (key, .map (entry :: entries)) => do
      return (← name? key) ++ ":\n" ++ String.join (← (entry :: entries).mapM line?)
    | (key, value) => do return (← name? key) ++ ": " ++ inline value ++ "\n"

end ScriptIndex.Yaml
