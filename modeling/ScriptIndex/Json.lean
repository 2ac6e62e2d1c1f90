import ScriptIndex.Datum

namespace ScriptIndex.Json

private def unit (n : Nat) : List Char :=
  ['\\', 'u'] ++ Text.hex 4 n

def char (c : Char) : List Char :=
  if c = '"' then ['\\', '"']
  else if c = '\\' then ['\\', '\\']
  else if c = '\n' then ['\\', 'n']
  else if c = '\r' then ['\\', 'r']
  else if c = '\t' then ['\\', 't']
  else if c.toNat = 8 then ['\\', 'b']
  else if c.toNat = 12 then ['\\', 'f']
  else if 32 ≤ c.toNat ∧ c.toNat < 127 then [c]
  else if c.toNat < 0x10000 then unit c.toNat
  else unit (0xd800 + (c.toNat - 0x10000) / 0x400) ++ unit (0xdc00 + (c.toNat - 0x10000) % 0x400)

def text (s : String) : String :=
  String.ofList ('"' :: s.toList.flatMap char ++ ['"'])

def number (x : Float) : String :=
  match Decimal.Double.ofFloat x with
  | .nan => "NaN"
  | .infinite negative => if negative then "-Infinity" else "Infinity"
  | .finite .. => Decimal.ofFloat x

/-- How the members of a list or mapping at some depth are set apart: what stands before the first,
between two, and behind the last. -/
structure Layout where
  opening : Nat → String
  between : Nat → String
  closing : Nat → String

private def newline (depth : Nat) : String :=
  String.ofList ('\n' :: List.replicate (2 * depth) ' ')

def Layout.compact : Layout :=
  ⟨fun _ => "", fun _ => ",", fun _ => ""⟩

def Layout.indented : Layout :=
  ⟨fun depth => newline (depth + 1), fun depth => "," ++ newline (depth + 1), newline⟩

private def enclose (l : Layout) (depth : Nat) (left right : String) (members : List String) :
    String :=
  match members with
  | [] => left ++ right
  | members => left ++ l.opening depth ++ (l.between depth).intercalate members ++ l.closing depth ++ right

def key : Datum.Key → String
  | .text s => text s
  | .null => text "null"
  | .bool b => text (if b then "true" else "false")
  | .int n => text (toString n)
  | .float x => text (number x)
  | .moment m => text m.display

def render (l : Layout) (depth : Nat) : Datum → String
  | .null => "null"
  | .bool b => if b then "true" else "false"
  | .int n => toString n
  | .float x => number x
  | .text s => text s
  | .moment m => text m.display
  | .list items => enclose l depth "[" "]" (renderItems items)
  | .map entries => enclose l depth "\x7b" "\x7d" (renderEntries entries)
where
  /-- The texts of the items of a list. -/
  renderItems : List Datum → List String
    | [] => []
    | item :: items => render l (depth + 1) item :: renderItems items
  /-- The texts of the entries of a mapping. -/
  renderEntries : List (Datum.Key × Datum) → List String
    | [] => []
    | (k, value) :: entries =>
      (key k ++ ": " ++ render l (depth + 1) value) :: renderEntries entries

def indented (d : Datum) : String :=
  render .indented 0 d

def compact (d : Datum) : String :=
  render .compact 0 d

end ScriptIndex.Json
