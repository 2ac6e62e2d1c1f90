import ScriptIndex.Proofs.CheckedRules

namespace ScriptIndex.Checked
open Std

private theorem mapError_bind {α β : Type} (x : Except BuildError α) (f : α → Except BuildError β) :
    (x >>= f).mapError Fault.build = (x.mapError .build >>= fun a => (f a).mapError .build) := by
  cases x <;> rfl

private theorem foldlM_mapError {σ α : Type} {f : σ → α → Except Fault σ} {g : σ → α → Except BuildError σ}
    (h : ∀ s x, f s x = (g s x).mapError .build) (xs : List α) (s : σ) :
    xs.foldlM f s = (xs.foldlM g s).mapError .build := by
  induction xs generalizing s with
  | nil => rfl
  | cons x xs ih =>
    rw [List.foldlM_cons, List.foldlM_cons, mapError_bind, h]
    congr 1
    funext t
    exact ih t

private theorem head?_splitOn (sep : Char) (text : List Char) :
    (List.splitOn sep text).head? = some (text.takeWhile (· ≠ sep)) := by
  induction text with
  | nil => rfl
  | cons c rest ih =>
    rw [List.splitOn_cons_eq_if_modifyHead]
    by_cases hc : c = sep
    · simp [hc]
    · rw [if_neg (by simpa using hc), List.takeWhile_cons_of_pos (by simpa using hc),
        List.head?_modifyHead, ih]
      rfl

private theorem head?_splitLines (text : List Char) :
    (Text.splitLines text).head? = some (text.takeWhile fun c => c ≠ '\r' ∧ c ≠ '\n') := by
  induction text using Text.splitLines.induct with
  | case1 => rfl
  | case2 rest ih => simp [Text.splitLines]
  | case3 c rest hne hc ih =>
    rw [Text.splitLines, if_pos hc]
    · rcases hc with rfl | rfl <;> simp
    · exact hne
  | case4 c rest hne hc line lines hs ih =>
    rw [Text.splitLines, if_neg hc, hs]
    · rw [hs, List.head?_cons] at ih
      rw [List.takeWhile_cons_of_pos (by simpa using hc), ← Option.some.inj ih]
      rfl
    · exact hne
  | case5 c rest hne hc hs ih => simp [hs] at ih

def switchKeyword (line : Line) : Except Fault (Option String) :=
  match Text.cut? "switch_".toList line with
  | none => return none
  | some (_, rest) => do
    let keyword ← item (List.splitOn ' ' (rest.map fun c => if c = '(' then ' ' else c)) 0
    return some (String.ofList keyword)

private theorem switchKeyword_eq (line : Line) :
    switchKeyword line = .ok (Index.switchKeyword? line) := by
  have htake (rest : List Char) :
      (rest.map fun c => if c = '(' then ' ' else c).takeWhile (· ≠ ' ') =
        rest.takeWhile fun c => c ≠ '(' ∧ c ≠ ' ' := by
    induction rest with
    | nil => rfl
    | cons c rest ih =>
      rw [List.map_cons]
      by_cases hopen : c = '('
      · simp [hopen]
      · by_cases hblank : c = ' '
        · simp [hblank]
        · rw [if_neg hopen, List.takeWhile_cons_of_pos (by simpa using hblank), ih,
          List.takeWhile_cons_of_pos (by simp [hopen, hblank])]
  unfold switchKeyword Index.switchKeyword?
  cases Text.cut? "switch_".toList line with
  | none => rfl
  | some pieces =>
    dsimp only
    rw [item_of_head? (head?_splitOn ' ' _), htake]
    rfl

def parameter (piece : List Char) : Except Fault (Option Parameter) :=
  let parts := List.splitOn ' ' (Text.strip piece)
  if parts.length = 2 then do
    let type ← item parts 0
    let name ← item parts 1
    return some ⟨String.ofList type, String.ofList name⟩
  else return none

private theorem parameter_eq (piece : List Char) : parameter piece = .ok (Parameter.parse? piece) := by
  unfold parameter Parameter.parse?
  match List.splitOn ' ' (Text.strip piece) with
  | [] => rfl
  | [_] => rfl
  | [_, _] => rfl
  | _ :: _ :: _ :: _ => rfl

def signature (line : Line) : Except Fault (Option Signature) :=
  if line = [] then return none
  else do
    let (params, rest) := Signature.parenthesized line
    let (returns, _) := Signature.parenthesized rest
    let read ← (Signature.pieces params).mapM parameter
    return some {
      params := read.filterMap id
      returns := (Signature.pieces returns).map fun piece =>
        Category.ofKeyword (String.ofList (Text.strip piece))
      returnsText := String.ofList (returns.getD []) }

private theorem signature_eq (line : Line) : signature line = .ok (Signature.parse? line) := by
  unfold signature Signature.parse?
  split
  · rfl
  · dsimp only
    rw [mapM_eq fun piece _ => parameter_eq piece, ok_bind, List.filterMap_map]
    rfl

def signatureOn (e : Excerpt) : Except Fault (Option Signature) :=
  if e.start < e.lines.length then
    match e.line? e.start with
    | none => .error (.build .noSuchLine)
    | some line => signature line
  else return none

private theorem signatureOn_eq (e : Excerpt) :
    signatureOn e = (Symbol.signatureOn e).mapError .build := by
  unfold signatureOn Symbol.signatureOn
  split
  · cases e.line? e.start with
    | none => rfl
    | some line => exact signature_eq line
  · rfl

def readExcerpt (e : Excerpt) (s : Symbol) : Except Fault Symbol := do
  let info ← (Symbol.infoAbove e).mapError .build
  match s.category.profile.display with
  | none => return { s with info := info }
  | some d =>
    let signature ← if d.shows .signature then signatureOn e else .ok none
    let block ← if d.shows .codeblock then
        some <$> (Symbol.codeOf s.category d e).mapError .build
      else .ok none
    return { s with info := info, signature := signature, block := block }

private theorem readExcerpt_eq (e : Excerpt) (s : Symbol) :
    readExcerpt e s = (Symbol.readExcerpt e s).mapError .build := by
  unfold readExcerpt Symbol.readExcerpt
  rw [mapError_bind]
  congr 1
  funext info
  cases s.category.profile.display with
  | none => rfl
  | some d =>
    dsimp only
    cases d.shows .signature <;> cases d.shows .codeblock <;>
      simp only [signatureOn_eq, if_true, if_false, Bool.false_eq_true]
    · rfl
    · cases Symbol.codeOf s.category d e <;> rfl
    · cases Symbol.signatureOn e <;> rfl
    · cases Symbol.signatureOn e with
      | error error => rfl
      | ok signature => cases Symbol.codeOf s.category d e <;> rfl

def lineBehind (mark : String) (block : String) : Except Fault (Option String) :=
  match Text.cut? mark.toList block.toList with
  | none => return none
  | some (_, after) => do
    let line ← item (Text.splitLines after) 0
    return some (String.ofList line)

private theorem lineBehind_eq (mark block : String) :
    lineBehind mark block = .ok (Symbol.lineBehind? mark block) := by
  unfold lineBehind Symbol.lineBehind?
  cases Text.cut? mark.toList block.toList with
  | none => rfl
  | some pieces =>
    dsimp only
    rw [item_of_head? (head?_splitLines _)]
    rfl

def describeEnum (s : Symbol) : Except Fault Symbol := do
  let block := s.block.getD ""
  let inputType ← lineBehind "inputtype=" block
  let outputType ← lineBehind "outputtype=" block
  return { s with extra := [("inputType", (inputType.map Datum.text).getD .null),
    ("outputType", (outputType.map Datum.text).getD .null)] }

def describeParam (s : Symbol) : Except Fault Symbol := do
  let type ← lineBehind "type=" (s.block.getD "")
  let type := type.getD ""
  return { s with extra := [("dataType", .text (if type = "" then "int" else type))] }

def tableIn (block : String) : Except Fault String :=
  if block.toList.contains '=' then String.ofList <$> item (List.splitOn '=' block.toList) 1
  else return ""

private theorem tableIn_eq (block : String) :
    tableIn block = .ok (match List.splitOn '=' block.toList with
      | _ :: table :: _ => String.ofList table
      | _ => "") := by
  unfold tableIn
  by_cases hm : '=' ∈ block.toList
  · obtain ⟨before, after, ht, hbefore⟩ := List.eq_append_cons_of_mem hm
    have hsplit := List.splitOn_append_cons_self_of_not_mem hbefore after
    rw [← ht] at hsplit
    rw [if_pos (by simpa using hm), hsplit]
    cases ha : List.splitOn '=' after with
    | nil => exact absurd ha (List.splitOn_ne_nil '=' after)
    | cons table more => rfl
  · rw [if_neg (by simpa using hm), List.splitOn_eq_singleton hm]
    rfl

def describeRow (s : Symbol) : Except Fault Symbol :=
  let block := s.block.getD ""
  if block = "" then return s
  else do
    let table ← tableIn block
    return { s with info := some ("A row in the <b>" ++ table ++ "</b> table"), block := none,
                    extra := [("table", .text table)] }

def describeColumn (s : Symbol) : Except Fault Symbol :=
  let (table, column) := Symbol.splitColon s.name
  let s := { s with name := column, info := some ("A column of the <b>" ++ table ++ "</b> table") }
  let block := s.block.getD ""
  if block = "" then return s
  else do
    let line ← item (Text.splitLines block.toList) 0
    let fields := line.drop ("column=".length + column.length + 1)
    let types := ((List.splitOn ',' fields).filter (· ≠ [])).map String.ofList
    return { s with extra := [("dataTypes", .list (types.map .text))],
                    block := some ("Field types: " ++ ", ".intercalate types) }

private theorem describeEnum_eq (s : Symbol) : describeEnum s = .ok s.describeEnum := by
  unfold describeEnum
  dsimp only
  rw [lineBehind_eq, lineBehind_eq]
  rfl

private theorem describeParam_eq (s : Symbol) : describeParam s = .ok s.describeParam := by
  unfold describeParam
  rw [lineBehind_eq]
  rfl

private theorem describeRow_eq (s : Symbol) : describeRow s = .ok s.describeRow := by
  unfold describeRow Symbol.describeRow
  dsimp only
  cases s.block with
  | none => rfl
  | some block =>
    by_cases hb : block = ""
    · rw [hb]
      rfl
    · rw [Option.getD_some, if_neg hb]
      split
      · cases ‹some block = none›
      · exact absurd (Option.some.inj ‹_›) hb
      · cases ‹some block = some _›
        rw [tableIn_eq]
        rfl

private theorem describeColumn_eq (s : Symbol) : describeColumn s = .ok s.describeColumn := by
  unfold describeColumn Symbol.describeColumn
  dsimp only
  cases s.block with
  | none => rfl
  | some block =>
    by_cases hb : block = ""
    · rw [hb]
      rfl
    · rw [Option.getD_some, if_neg hb, item_of_head? (head?_splitLines _)]
      split
      · cases ‹some block = none›
      · exact absurd (Option.some.inj ‹_›) hb
      · cases ‹some block = some _›
        rfl

def describe (s : Symbol) : Except Fault Symbol :=
  match s.category with
  | .enum => describeEnum s
  | .param => describeParam s
  | .dbRow => describeRow s
  | .dbColumn => describeColumn s
  | _ => s.describe.mapError .build

private theorem describe_eq (s : Symbol) : describe s = s.describe.mapError .build := by
  unfold describe
  split
  · rename_i hc
    rw [describeEnum_eq, Symbol.describe, hc]
    rfl
  · rename_i hc
    rw [describeParam_eq, Symbol.describe, hc]
    rfl
  · rename_i hc
    rw [describeRow_eq, Symbol.describe, hc]
    rfl
  · rename_i hc
    rw [describeColumn_eq, Symbol.describe, hc]
    rfl
  · rfl

def declared (name : String) (role : Role) (location : Location) (e : Excerpt) :
    Except Fault Symbol := do
  let bare : Symbol :=
    { name := name, category := role.category, declaration := some location,
      fileType := (Path.parse location.file).extension, extra := role.extra }
  let read ← readExcerpt e bare
  describe read

private theorem declared_eq (name : String) (role : Role) (location : Location) (e : Excerpt) :
    declared name role location e =
      (Symbol.declared name role location (some e)).mapError .build := by
  unfold declared Symbol.declared
  dsimp only
  rw [mapError_bind, readExcerpt_eq]
  congr 1
  funext read
  exact describe_eq read

def declare (t : SymbolTable) (name : String) (role : Role) (location : Location) (e : Excerpt) :
    Except Fault (SymbolTable × Option Symbol) :=
  match Symbol.key? name role.category, fileKey? location.file with
  | some key, some file =>
    match t.symbols[key]? with
    | some current =>
      if current.declaration.isSome then return (t, some current)
      else do
        let s ← declared name role location e
        let s := { s with
          references := current.references
          packId := (SymbolTable.givenId? current.packId).or s.packId }
        let t := t.recordDeclaration key file s location.span.start
        return (t, t.symbols[key]?)
    | none => do
      let s ← declared name role location e
      let t := t.recordDeclaration key file s location.span.start
      return (t, t.symbols[key]?)
  | _, _ => return (t, none)

private theorem declare_eq (t : SymbolTable) (name : String) (role : Role) (location : Location)
    (e : Excerpt) :
    declare t name role location e = (t.declare name role location e).mapError .build := by
  unfold declare SymbolTable.declare
  rw [declared_eq]
  cases Symbol.key? name role.category with
  | none => rfl
  | some key =>
    cases fileKey? location.file with
    | none => rfl
    | some file =>
      dsimp only
      cases t.symbols[key]? with
      | none => cases Symbol.declared name role location (some e) <;> rfl
      | some current =>
        dsimp only
        split
        · rfl
        · cases Symbol.declared name role location (some e) <;> rfl

def writeDeclaration (i : Index) (file : String) (lines : List Line) (number : Nat) (line : Line)
    (m : Match) : Except Fault Index := do
  let location := Location.at file number m.annotations.start 0
  let (symbols, symbol) ← declare i.symbols m.word m.role location (Index.excerptAt lines number)
  let i := { i with symbols := symbols }
  let hasResults := symbol.any fun s => s.signature.any fun s => !s.returns.isEmpty
  if ScriptCache.hasEnding ".rs2" file && hasResults && LineShape.isTriggerLine line then
    let key := (Symbol.key? m.word m.role.category).getD ""
    return { i with returns := i.returns.put (number + 1) key file }
  else return i

private theorem writeDeclaration_eq (i : Index) (file : String) (lines : List Line) (number : Nat)
    (line : Line) (m : Match) :
    writeDeclaration i file lines number line m =
      (i.writeDeclaration file lines number line m).mapError .build := by
  unfold writeDeclaration
  dsimp only
  rw [i.writeDeclaration_eq_bind, mapError_bind, ← declare_eq]
  congr 1
  funext r
  dsimp only
  split <;> rfl

def writeMatch (file : String) (lines : List Line) (number : Nat) (line : Line) (i : Index)
    (m : Match) : Except Fault Index :=
  if m.role.category.profile.cached then
    if m.role.declares then writeDeclaration i file lines number line m
    else return i.writeReference file number m
  else return i

private theorem writeMatch_eq (file : String) (lines : List Line) (number : Nat) (line : Line) (i : Index)
    (m : Match) : writeMatch file lines number line i m =
      (Index.writeMatch file lines number line i m).mapError .build := by
  unfold writeMatch Index.writeMatch
  rw [writeDeclaration_eq]
  split
  · split <;> rfl
  · rfl

def noteLine (i : Index) (file : String) (number : Nat) (line : Line) : Except Fault Index := do
  let keyword ← if ScriptCache.hasEnding ".rs2" file then switchKeyword line else .ok none
  let i :=
    match keyword with
    | none => i
    | some keyword =>
      let operand := Category.ofKeyword keyword
      if operand = .unknown then i
      else { i with switches := i.switches.put (number + 1) operand.id file }
  return if ScriptCache.hasEnding ".jm2" file then i.noteSection file number line else i

private theorem noteLine_eq (i : Index) (file : String) (number : Nat) (line : Line) :
    noteLine i file number line = .ok (i.noteLine file number line) := by
  unfold noteLine Index.noteLine Index.noteSwitch
  rw [switchKeyword_eq]
  cases ScriptCache.hasEnding ".rs2" file <;> rfl

def writeLine [KeyOrder] (file : String) (lines : List Line) (i : Index) (number : Nat) (line : Line) :
    Except Fault Index := do
  let i ← noteLine i file number line
  let found ← onLine i line number file
  (found.filterMap id).foldlM (writeMatch file lines number line) i

def writeLines [KeyOrder] (file : String) (lines : List Line) (i : Index) (number : Nat) :
    List Line → Except Fault Index
  | [] => return i
  | line :: rest => do
    let i ← writeLine file lines i number line
    writeLines file lines i (number + 1) rest

def parse [KeyOrder] (i : Index) (file : String) (text : String) : Except Fault Index :=
  let lines := Text.splitLines text.toList
  writeLines file lines i 0 lines

section
variable {i : Index} (h : i.symbols.KeepsValues)
include h

/-- No read fails on a line: it leads to the index after the line. -/
theorem writeLine_eq [KeyOrder] (l : FileLine) :
    writeLine l.file l.lines i l.number l.text = .ok (i.next l) := by
  have hnoted : (i.noteLine l.file l.number l.text).symbols.KeepsValues := by
    rw [i.symbols_noteLine]
    exact h
  have hrun : (Index.writeLine l.file l.lines i l.number l.text).mapError Fault.build =
      .ok (i.next l) := by
    rw [i.writeLine_eq l]
    rfl
  rw [← hrun]
  unfold writeLine Index.writeLine
  rw [noteLine_eq, ok_bind, onLine_eq hnoted, ok_bind]
  exact foldlM_mapError (writeMatch_eq l.file l.lines l.number l.text) _ _

/-- No read fails in a file: it leads to the index after its lines. -/
theorem parse_eq [KeyOrder] (file text : String) :
    parse i file text = .ok (i.after (FileLine.ofFile file text)) := by
  have hlines (lines rest : List Line) (number : Nat) (i : Index) (h : i.symbols.KeepsValues)
      (hrest : lines.drop number = rest) : writeLines file lines i number rest =
        .ok (i.after (FileLine.linesFrom file lines number rest hrest)) := by
    induction rest generalizing number i with
    | nil => rfl
    | cons line rest ih =>
      rw [writeLines, FileLine.linesFrom, writeLine_eq h ⟨file, lines, number, line, _⟩]
      exact ih (number + 1) _ (Index.next_keepsValues h _) _
  exact hlines _ _ 0 i h List.drop_zero

end

end ScriptIndex.Checked

namespace ScriptIndex.Workspace

/-- In a reachable workspace no read fails, whatever is indexed and whatever is classified: a checked run
comes to an end, and it ends as the running definitions do. -/
theorem Reachable.no_fault [KeyOrder] {w : Workspace} (hw : w.Reachable) :
    (∀ file text : String, ∃ j, w.index.parse file text = .ok j ∧
      Checked.parse w.index file text = .ok j) ∧
    (∀ (line : Line) (number : Int) (file : String) (column : Int),
      Checked.onColumn w.index line number file column =
        .ok (Match.onColumn? w.index line number file column)) ∧
    (∀ (line : Line) (number : Int) (file : String),
      Checked.onLine w.index line number file = .ok (Match.onLine w.index line number file)) := by
  have h := hw.keepsValues
  exact ⟨fun file text => ⟨_, w.index.parse_eq file text, Checked.parse_eq h file text⟩,
    Checked.onColumn_eq h, Checked.onLine_eq h⟩

section
attribute [local instance] Codecs.standard KeyOrder.ascending

/-- The values of a row are read with the types that the columns of its table have left. -/
theorem row_of_table_no_fault :
    let w : Workspace := ({ root := ⟨.single, ["ws"]⟩ } : Workspace).perform {}
      (.parse "/ws/shop.dbtable" "[shop]\ncolumn=price,obj,int")
    w.Reachable ∧ ∃ j, w.index.parse "/ws/a.dbrow" "[bakery]\ntable=shop\ndata=price,coins,5" = .ok j ∧
      Checked.parse w.index "/ws/a.dbrow" "[bakery]\ntable=shop\ndata=price,coins,5" = .ok j := by
  intro w
  have hw : w.Reachable := .step {} (.parse _ _) (.start _ _)
  exact ⟨hw, (Reachable.no_fault hw).1 _ _⟩

end

end ScriptIndex.Workspace
