import ScriptIndex.Decimal.Text
import ScriptIndex.Moment
import ScriptIndex.Text.Quoted

namespace ScriptIndex

/-- What a mapping keeps a value under: a text, or another simple value. -/
inductive Datum.Key where
  | text (s : String)
  | null
  | bool (b : Bool)
  | int (n : Int)
  | float (x : Float)
  | moment (m : Moment)
  deriving Repr, Inhabited

/-- A plain value. -/
inductive Datum where
  | null
  | bool (b : Bool)
  | int (n : Int)
  | float (x : Float)
  | text (s : String)
  | moment (m : Moment)
  | list (items : List Datum)
  | map (entries : List (Datum.Key × Datum))
  deriving Repr, Inhabited

namespace Datum

abbrev Entries := List (Key × Datum)

instance : Coe String Key := ⟨.text⟩

def whole? (x : Float) : Option Int :=
  match Decimal.Double.ofFloat x with
  | .finite negative m q =>
    let n := Decimal.truncate negative m q
    if 0 ≤ q ∨ n.natAbs <<< (-q).toNat = m then some n else none
  | _ => none

namespace Key

def toDatum : Key → Datum
  | text s => .text s
  | null => .null
  | bool b => .bool b
  | int n => .int n
  | float x => .float x
  | moment m => .moment m

def number? : Key → Option Int
  | bool b => some (if b then 1 else 0)
  | int n => some n
  | float x => whole? x
  | _ => none

def same : Key → Key → Bool
  | text a, text b => a == b
  | null, null => true
  | moment a, moment b => a == b
  | float a, float b => a == b
  | a, b => a.number?.isSome && a.number? == b.number?

instance : BEq Key := ⟨same⟩

def quoted : Key → String
  | text s => Text.quoted s
  | null => "None"
  | bool b => if b then "True" else "False"
  | int n => toString n
  | float x => Decimal.ofFloat x
  | moment m => m.quoted

end Key

def isTruthy : Datum → Bool
  | null => false
  | bool b => b
  | int n => n != 0
  | float x => x != 0.0
  | text s => s != ""
  | moment _ => true
  | list items => !items.isEmpty
  | map entries => !entries.isEmpty

def quoted : Datum → String
  | null => "None"
  | bool b => if b then "True" else "False"
  | int n => toString n
  | float x => Decimal.ofFloat x
  | text s => Text.quoted s
  | moment m => m.quoted
  | list items => "[" ++ ", ".intercalate (quotedItems items) ++ "]"
  | map entries => "\x7b" ++ ", ".intercalate (quotedEntries entries) ++ "\x7d"
where
  /-- The texts of the items of a list. -/
  quotedItems : List Datum → List String
    | [] => []
    | item :: items => quoted item :: quotedItems items
  /-- The texts of the entries of a mapping. -/
  quotedEntries : List (Key × Datum) → List String
    | [] => []
    | (key, value) :: entries => (key.quoted ++ ": " ++ quoted value) :: quotedEntries entries

def display : Datum → String
  | text s => s
  | moment m => m.display
  | value => value.quoted

def isShort (n : Int) : Bool :=
  (Nat.toDigits 10 n.natAbs).length ≤ Text.digitLimit

def Key.isWritable : Key → Bool
  | .int n => isShort n
  | _ => true

def isWritable : Datum → Bool
  | int n => isShort n
  | list items => writableItems items
  | map entries => writableEntries entries
  | _ => true
where
  /-- Whether the items of a list can be written. -/
  writableItems : List Datum → Bool
    | [] => true
    | item :: items => isWritable item && writableItems items
  /-- Whether the entries of a mapping can be written. -/
  writableEntries : List (Key × Datum) → Bool
    | [] => true
    | (key, value) :: entries => key.isWritable && isWritable value && writableEntries entries

def record (attributes : List (String × Datum)) : Datum :=
  .map (attributes.map fun (name, value) => (.text name, value))

def get? (key : String) : Datum → Option Datum
  | map entries => entries.lookup (.text key)
  | _ => none

inductive Misfit where
  /-- The value is of a kind that has no such reading. -/
  | kind
  /-- The text is malformed, the number is none, or it is too long to be written. -/
  | content
  /-- The number is out of range. -/
  | range
  deriving DecidableEq, Repr

def toInt : Datum → Except Misfit Int
  | int n => .ok n
  | bool b => .ok (if b then 1 else 0)
  | float x =>
    match Decimal.Double.ofFloat x with
    | .nan => .error .content
    | .infinite _ => .error .range
    | .finite negative m q => .ok (Decimal.truncate negative m q)
  | text s =>
    match Text.int? s.toList with
    | some n => .ok n
    | none => .error .content
  | _ => .error .kind

def toFloat : Datum → Except Misfit Float
  | float x => .ok x
  | bool b => .ok (if b then 1.0 else 0.0)
  | int n =>
    let x := Decimal.toFloat (n < 0) n.natAbs 0
    match Decimal.Double.ofFloat x with
    | .infinite _ => .error .range
    | _ => .ok x
  | text s =>
    match Decimal.float? s.toList with
    | some x => .ok x
    | none => .error .content
  | _ => .error .kind

def toText (d : Datum) : Except Misfit String :=
  if d.isWritable then .ok d.display else .error .content

def members? : Datum → Option (List Datum)
  | list items => some items
  | map entries => some (entries.map fun entry => entry.1.toDatum)
  | text s => some (s.toList.map fun c => .text (String.ofList [c]))
  | _ => none

end Datum

end ScriptIndex
