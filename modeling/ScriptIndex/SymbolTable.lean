import ScriptIndex.Symbol

/-! The symbols of a workspace, and for each file the keys it declares and refers to, so that a file
can be taken out again. A symbol is kept as long as something refers to it. -/
namespace ScriptIndex

/-- The order in which a set of keys is walked. Nothing is known of it but that every key comes once; it
may be another one as soon as the set is. -/
class KeyOrder where
  walk : Std.ExtTreeSet String → List String
  walk_perm : ∀ keys, (walk keys).Perm keys.toList

@[reducible] def KeyOrder.ascending : KeyOrder where
  walk keys := keys.toList
  walk_perm _ := .refl _

structure FileKeys where
  declared : Std.ExtTreeSet String := ∅
  referenced : Std.ExtTreeSet String := ∅

/-- Symbols by key, and for each file the keys that it declares and refers to. -/
structure SymbolTable where
  symbols : Std.ExtTreeMap String Symbol := ∅
  files : Std.ExtTreeMap String FileKeys := ∅

namespace SymbolTable

def get? (t : SymbolTable) (name : String) (c : Category) : Option Symbol :=
  (Symbol.key? name c).bind (t.symbols[·]?)

def contains (t : SymbolTable) (name : String) (c : Category) : Bool :=
  (t.get? name c).isSome

def keysOf? (t : SymbolTable) (file : String) : Option FileKeys :=
  (fileKey? file).bind (t.files[·]?)

def keys (t : SymbolTable) : List String :=
  t.symbols.keys

def size (t : SymbolTable) : Nat :=
  t.symbols.size

def lineBefore? (line : Int) (accepts : Category → Bool) (s : Symbol) : Option Int := do
  let d ← s.declaration
  let start := d.span.start.line
  if 0 ≤ start ∧ start < line ∧ accepts s.category then some start else none

def lower (best : Option (Int × Symbol)) (candidate : Int × Symbol) : Option (Int × Symbol) :=
  match best with
  | some b => if b.1 < candidate.1 then some candidate else some b
  | none => some candidate

/-- The symbol declared closest above a line of a file, among the categories that are accepted. Of two
on one line it is the one whose key is walked first. -/
def parent? [KeyOrder] (t : SymbolTable) (file : String) (line : Int) (accepts : Category → Bool) :
    Option Symbol := do
  let entry ← t.keysOf? file
  let candidates := (KeyOrder.walk entry.declared).filterMap fun key => do
    let s ← t.symbols[key]?
    let start ← lineBefore? line accepts s
    return (start, s)
  (candidates.foldl lower none).map Prod.snd

def addPosition (file : String) (p : Position) (r : References) : References :=
  r.alter file fun positions => some ((positions.getD ∅).insert p)

def addDeclared (key : String) (entry : Option FileKeys) : Option FileKeys :=
  let entry := entry.getD {}
  some { entry with declared := entry.declared.insert key }

def addReferenced (key : String) (entry : Option FileKeys) : Option FileKeys :=
  let entry := entry.getD {}
  some { entry with referenced := entry.referenced.insert key }

def givenId? (packId : Option String) : Option String :=
  packId.filter (· ≠ "")

abbrev Edit := ExceptT BuildError (StateM SymbolTable)

namespace Edit

def onSymbol (key : String) (change : Symbol → Symbol) : Edit Unit :=
  modify fun t => { t with symbols := t.symbols.alter key (Option.map change) }

def store (key : String) (s : Symbol) : Edit Unit :=
  modify fun t => { t with symbols := t.symbols.insert key s }

def onFile (file : String) (change : Option FileKeys → Option FileKeys) : Edit Unit :=
  modify fun t => { t with files := t.files.alter file change }

def record (key file : String) (p : Position) (packId : Option String) : Edit Unit := do
  onSymbol key fun s => { s with references := addPosition file p s.references }
  onFile file (addReferenced key)
  if (givenId? packId).isSome then
    onSymbol key fun s => { s with packId := packId }

/-- Records a reference under a key. The first one makes a placeholder, except in the category of words
that stand for nothing. -/
def referUnder (key name : String) (role : Role) (file : String) (p : Position)
    (packId : Option String) : Edit Unit := do
  match (← get).symbols[key]? with
  | some _ => record key file p packId
  | none =>
    unless role.category = .unknown do
      store key (Symbol.placeholder name role)
      record key file p packId

def refer (name : String) (role : Role) (file : String) (p : Position) (packId : Option String) :
    Edit Unit :=
  match Symbol.key? name role.category, fileKey? file with
  | some key, some file => referUnder key name role file p packId
  | _, _ => pure ()

/-- Records a declaration, which is also a reference. A declaration that is there already stays, and
a placeholder hands on its references. The answer is the symbol under the key. -/
def declare (name : String) (role : Role) (location : Location) (excerpt : Excerpt) :
    Edit (Option Symbol) :=
  match Symbol.key? name role.category, fileKey? location.file with
  | some key, some file => do
    let current := (← get).symbols[key]?
    if current.any fun s => s.declaration.isSome then
      return current
    else
      let s ← Symbol.declared name role location (some excerpt)
      onFile file (addDeclared key)
      store key <| match current with
        | some c => { s with
            references := c.references, packId := (givenId? c.packId).or s.packId }
        | none => s
      referUnder key name role file location.span.start none
      return (← get).symbols[key]?
  | _, _ => return none

end Edit

def edit {α : Type} (t : SymbolTable) (steps : Edit α) : Except BuildError α × SymbolTable :=
  steps.run.run t

def dropReferences (file : String) (s : Option Symbol) : Option Symbol :=
  s.bind fun s =>
    let references := s.references.erase file
    if references.isEmpty && s.declaration.isNone then none
    else some { s with references := references }

def dropDeclaration (s : Option Symbol) : Option Symbol :=
  s.bind fun s => if s.references.isEmpty then none else some { s with declaration := none }

def alterAll (change : Option Symbol → Option Symbol) (keys : List String)
    (symbols : Std.ExtTreeMap String Symbol) : Std.ExtTreeMap String Symbol :=
  keys.foldl (fun symbols key => symbols.alter key change) symbols

/-- Takes out everything that a file contributed. Symbols that other files refer to stay, without a
declaration if it was in this file. -/
def clearFile (t : SymbolTable) (file : String) : SymbolTable :=
  match fileKey? file with
  | none => t
  | some file =>
    match t.files[file]? with
    | none => t
    | some entry =>
      { symbols := alterAll dropDeclaration entry.declared.toList
          (alterAll (dropReferences file) entry.referenced.toList t.symbols)
        files := t.files.erase file }

end SymbolTable

end ScriptIndex
