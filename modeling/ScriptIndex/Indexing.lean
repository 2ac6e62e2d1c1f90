import ScriptIndex.Match

namespace ScriptIndex.Index

def switchKeyword? (line : Line) : Option String :=
  (Text.cut? "switch_".toList line).map fun (_, rest) =>
    String.ofList (rest.takeWhile fun c => c ≠ '(' ∧ c ≠ ' ')

def noteSwitch (i : Index) (file : String) (number : Nat) (line : Line) : Index :=
  match switchKeyword? line with
  | none => i
  | some keyword =>
    let operand := Category.ofKeyword keyword
    if operand = .unknown then i
    else { i with switches := i.switches.put (number + 1) operand.id file }

def noteSection (i : Index) (file : String) (number : Nat) (line : Line) : Index :=
  match LineShape.mapSection? line with
  | none => i
  | some name => { i with sections := i.sections.put (number + 1) name file }

def noteLine (i : Index) (file : String) (number : Nat) (line : Line) : Index :=
  let i := if ScriptCache.hasEnding ".rs2" file then i.noteSwitch file number line else i
  if ScriptCache.hasEnding ".jm2" file then i.noteSection file number line else i

/-- The lines from the one before a declaration on; an info comment may stand there. -/
def excerptAt (lines : List Line) (number : Nat) : Excerpt :=
  ⟨lines.drop (number - 1), if number = 0 then 0 else 1⟩

def referenceColumn (a : Annotations) : Nat :=
  if a.isModified then a.start
  else match Text.find? [':'] a.word.toList with
    | some (n + 1) => a.start + n + 2
    | _ => a.start

def writeDeclaration (i : Index) (file : String) (lines : List Line) (number : Nat) (line : Line)
    (m : Match) : Except BuildError Index :=
  let location := Location.at file number m.annotations.start 0
  match i.symbols.edit (.declare m.word m.role location (excerptAt lines number)) with
  | (.error e, _) => .error e
  | (.ok symbol, symbols) =>
    let i := { i with symbols := symbols }
    let hasResults := symbol.any fun s => s.signature.any fun s => !s.returns.isEmpty
    if ScriptCache.hasEnding ".rs2" file && hasResults && LineShape.isTriggerLine line then
      let key := (Symbol.key? m.word m.role.category).getD ""
      .ok { i with returns := i.returns.put (number + 1) key file }
    else .ok i

def writeReference (i : Index) (file : String) (number : Nat) (m : Match) : Index :=
  let position : Position := ⟨number, referenceColumn m.annotations⟩
  let refer := SymbolTable.Edit.refer m.word m.role file position m.annotations.packId
  { i with symbols := (i.symbols.edit refer).2 }

def writeMatch (file : String) (lines : List Line) (number : Nat) (line : Line) (i : Index)
    (m : Match) : Except BuildError Index :=
  if m.role.category.profile.cached then
    if m.role.declares then i.writeDeclaration file lines number line m
    else .ok (i.writeReference file number m)
  else .ok i

def writeLine [KeyOrder] (file : String) (lines : List Line) (i : Index) (number : Nat) (line : Line) :
    Except BuildError Index :=
  let i := i.noteLine file number line
  ((Match.onLine i line number file).filterMap id).foldlM (writeMatch file lines number line) i

def writeLines [KeyOrder] (file : String) (lines : List Line) (i : Index) (number : Nat) :
    List Line → Except BuildError Index
  | [] => .ok i
  | line :: rest => do
    let i ← writeLine file lines i number line
    writeLines file lines i (number + 1) rest

/-- Indexes a file. -/
def parse [KeyOrder] (i : Index) (file : String) (text : String) : Except BuildError Index :=
  let lines := Text.splitLines text.toList
  writeLines file lines i 0 lines

end ScriptIndex.Index
