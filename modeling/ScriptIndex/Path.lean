import ScriptIndex.Text.Pieces

/-! File paths. A path is its root and its parts; empty parts and single dots are left out, so that
every path has one written form. -/
namespace ScriptIndex

/-- Where a path starts. Two slashes at the front are kept apart from one; more count as one. -/
inductive Path.Root where
  | relative
  | single
  | double
  deriving DecidableEq, Repr

/-- A file path in its normal form. -/
structure Path where
  root : Path.Root
  parts : List String
  deriving DecidableEq, Repr

namespace Path

def Root.text : Root → String
  | .relative => ""
  | .single => "/"
  | .double => "//"

def rootOf : List Char → Root
  | '/' :: '/' :: '/' :: _ => .single
  | '/' :: '/' :: _ => .double
  | '/' :: _ => .single
  | _ => .relative

def parse (s : String) : Path where
  root := rootOf s.toList
  parts := ((List.splitOn '/' s.toList).filter fun part => part ≠ [] ∧ part ≠ ['.']).map String.ofList

def text (p : Path) : String :=
  if p.root = .relative ∧ p.parts = [] then "."
  else p.root.text ++ "/".intercalate p.parts

def isAbsolute (p : Path) : Bool :=
  p.root != .relative

def join (p q : Path) : Path :=
  if q.isAbsolute then q else { p with parts := p.parts ++ q.parts }

def name (p : Path) : String :=
  p.parts.getLast?.getD ""

def extensionOf (name : String) : String :=
  let cs := name.toList
  let ending := (cs.reverse.takeWhile (· ≠ '.')).reverse
  if ending.length + 1 < cs.length ∧ ending ≠ [] then String.ofList ending else ""

def extension (p : Path) : String :=
  String.ofList (Text.strip (extensionOf p.name).toList)

def withName (p : Path) (name : String) : Path :=
  { p with parts := p.parts.dropLast ++ [name] }

def below? (base p : Path) : Option (List String) :=
  if p.root = base.root ∧ base.parts.isPrefixOf p.parts then some (p.parts.drop base.parts.length)
  else none

def resolve (p : Path) : Path where
  root := if p.root = .double then .single else p.root
  parts := p.parts.foldl (fun parts part => if part = ".." then parts.dropLast else parts ++ [part]) []

end Path

/-- The key under which a file is kept: its path in normal form. No file, no key. -/
def fileKey? (file : String) : Option String :=
  if file = "" then none else some (Path.parse file).text

/-- What the name of a file says: the part before its first dot, and the part after it up to the
next dot, which is the dialect that the file is written in. -/
structure FileName where
  name : String
  dialect : String
  deriving DecidableEq, Repr

def FileName.ofFile (file : String) : FileName :=
  match List.splitOn '.' (Path.parse file).name.toList with
  | name :: dialect :: _ => ⟨String.ofList name, String.ofList dialect⟩
  | [name] => ⟨String.ofList name, ""⟩
  | [] => ⟨"", ""⟩

end ScriptIndex
