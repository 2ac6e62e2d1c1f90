import ScriptIndex.Proofs.KeptValues

/-! Classification with every read checked. The running definitions give a default where a list has no such
place or a value is of another kind; here the run is given up there. On a line of a file, and with values
that are kept as they should be, no run is, and what is said of a word is the same. -/
namespace ScriptIndex

/-- Why a run is given up. -/
inductive Fault where
  /-- A list or text has no such place. -/
  | noSuchPlace
  /-- There is nothing under a key. -/
  | noSuchKey
  /-- A value is of another kind than the one that is asked for. -/
  | wrongKind
  | cursor (e : CallSite.CursorError)
  | build (e : BuildError)
  deriving DecidableEq, Repr

namespace Checked
open Std

theorem ok_bind {α β : Type} (a : α) (f : α → Except Fault β) : (Except.ok a >>= f) = f a :=
  rfl

def item {α : Type} (xs : List α) (place : Nat) : Except Fault α :=
  match xs[place]? with
  | some x => .ok x
  | none => .error .noSuchPlace

private theorem item_eq {α : Type} {xs : List α} {place : Nat} {x : α} (h : xs[place]? = some x) :
    item xs place = .ok x := by
  rw [item, h]

theorem item_of_head? {α : Type} {xs : List α} {x : α} (h : xs.head? = some x) :
    item xs 0 = .ok x :=
  item_eq (List.head?_eq_getElem?.symm.trans h)

def itemWithin {α : Type} (xs : List α) (place : Nat) : Except Fault (Option α) :=
  if place < xs.length then some <$> item xs place else .ok none

private theorem itemWithin_eq {α : Type} (xs : List α) (place : Nat) :
    itemWithin xs place = .ok xs[place]? := by
  unfold itemWithin
  split
  · rename_i h
    rw [item_eq (List.getElem?_eq_getElem h), List.getElem?_eq_getElem h]
    rfl
  · rename_i h
    rw [List.getElem?_eq_none (Nat.le_of_not_lt h)]

def field (extra : Attributes) (name : String) : Except Fault Datum :=
  match extra.lookup name with
  | some value => .ok value
  | none => .error .noSuchKey

def valueFrom (lines : ExtTreeMap Int String) (start : Int) : Except Fault String :=
  match lines[start]? with
  | some value => .ok value
  | none => .error .noSuchKey

def holding (b : Breakpoints) (line : Int) (file : String) : Except Fault (Option String) :=
  match (fileKey? file).bind (b.files[·]?) with
  | none => .ok none
  | some lines =>
    match (lines.filter fun start _ => start ≤ line).maxKey? with
    | none => .ok none
    | some start => some <$> valueFrom lines start

private theorem holding_eq (b : Breakpoints) (line : Int) (file : String) :
    holding b line file = .ok (b.get? line file) := by
  have hget : b.get? line file =
      ((fileKey? file).bind (b.files[·]?)).bind (Breakpoints.floor? · line) := by
    unfold Breakpoints.get?
    cases fileKey? file <;> rfl
  rw [hget]
  unfold holding Breakpoints.floor?
  cases (fileKey? file).bind (b.files[·]?) with
  | none => rfl
  | some lines =>
    simp only [Option.bind_some]
    cases hm : (lines.filter fun start _ => start ≤ line).maxKey? with
    | none => rfl
    | some start =>
      have hmem : start ∈ lines := ExtTreeMap.mem_of_mem_filter (ExtTreeMap.maxKey?_mem hm)
      obtain ⟨value, hv⟩ := Option.isSome_iff_exists.1 (ExtTreeMap.mem_iff_isSome_getElem?.1 hmem)
      simp [valueFrom, hv]

def members (value : Option Datum) : Except Fault (List Datum) :=
  match value with
  | none => .ok []
  | some value =>
    match value.members? with
    | some items => .ok items
    | none => .error .wrongKind

private theorem members_eq {extra : Attributes} (h : KeptValues extra) :
    ∃ types : List String,
      ((extra.lookup "dataTypes").bind Datum.members?).getD [] = types.map .text ∧
        members (extra.lookup "dataTypes") = .ok (types.map .text) := by
  cases hv : extra.lookup "dataTypes" with
  | none => exact ⟨[], rfl, rfl⟩
  | some value =>
    cases h.of_lookup hv with
    | nothing hn => exact absurd rfl hn
    | text _ s =>
      refine ⟨s.toList.map fun c => String.ofList [c], ?_, ?_⟩ <;>
        simp [members, Datum.members?, Function.comp_def]
    | fieldTypes types => exact ⟨types, rfl, rfl⟩

def pieces (mark : List Char) : Nat → List Char → List (List Char)
  | _, [] => [[]]
  | skip + 1, _ :: rest => pieces mark skip rest
  | 0, c :: rest =>
    if mark.isPrefixOf (c :: rest) then [] :: pieces mark (mark.length - 1) rest
    else match pieces mark 0 rest with
      | piece :: pieces => (c :: piece) :: pieces
      | [] => [[c]]

private theorem head?_pieces (mark text : List Char) :
    (pieces mark 0 text).head? = some (Text.before mark text) := by
  induction text with
  | nil =>
    unfold Text.before Text.cut?
    split <;> rfl
  | cons c rest ih =>
    unfold pieces Text.before Text.cut?
    split
    · rfl
    · unfold Text.before at ih
      cases hp : pieces mark 0 rest with
      | nil => simp [hp] at ih
      | cons piece more =>
        rw [hp, List.head?_cons] at ih
        rw [List.head?_cons, Option.some.inj ih]
        cases Text.cut? mark rest <;> rfl

def withoutComment (line : Line) : Except Fault Line :=
  item (pieces "//".toList 0 line) 0

private theorem withoutComment_eq (line : Line) :
    withoutComment line = .ok (LineShape.withoutComment line) :=
  item_of_head? (head?_pieces "//".toList line)

def fileName (file : String) : Except Fault FileName := do
  let parts := List.splitOn '.' (Path.parse file).name.toList
  let name ← item parts 0
  let dialect ← if 1 < parts.length then item parts 1 else .ok []
  return ⟨String.ofList name, String.ofList dialect⟩

private theorem fileName_eq (file : String) : fileName file = .ok (FileName.ofFile file) := by
  unfold fileName FileName.ofFile
  have hne := List.splitOn_ne_nil '.' (Path.parse file).name.toList
  cases hs : List.splitOn '.' (Path.parse file).name.toList with
  | nil => exact absurd hs hne
  | cons name rest => cases rest <;> rfl

def lineContext (line : Line) (number : Int) (file : String) : Except Fault LineContext := do
  let text ← withoutComment line
  let fileName ← fileName file
  return ⟨Word.ofLine text, file, text, number, fileName⟩

private theorem lineContext_eq (line : Line) (number : Int) (file : String) :
    lineContext line number file = .ok (LineContext.ofLine line number file) := by
  unfold lineContext
  rw [withoutComment_eq, fileName_eq]
  rfl

def wordContext (l : LineContext) (w : Word) (cursor : Int) : Except Fault WordContext := do
  if 0 < w.index then discard (item l.words (w.index - 1))
  return ⟨l, w, cursor.toNat⟩

end Checked

structure WordContext.Placed (ctx : WordContext) : Prop where
  words : ctx.line.words = Word.ofLine ctx.line.text
  word : ctx.word ∈ ctx.line.words

namespace WordContext.Placed
variable {ctx : WordContext}

private theorem getElem?_index (h : ctx.Placed) : ctx.line.words[ctx.word.index]? = some ctx.word := by
  have hw := h.word
  rw [h.words] at hw ⊢
  exact Word.getElem?_index hw

/-- No word of the line is counted past the one that stands there. -/
private theorem exists_word (h : ctx.Placed) {place : Nat} (hp : place ≤ ctx.word.index) :
    ∃ w, ctx.line.words[place]? = some w := by
  have hlt := (List.getElem?_eq_some_iff.1 h.getElem?_index).1
  exact ⟨_, List.getElem?_eq_getElem (Nat.lt_of_le_of_lt hp hlt)⟩

/-- The character before a word that does not start the line. -/
private theorem exists_charBefore (h : ctx.Placed) {w : Word} (hw : w ∈ ctx.line.words) (hs : w.start ≠ 0) :
    ∃ c, ctx.line.text[w.start - 1]? = some c := by
  rw [h.words] at hw
  obtain ⟨before, after, ht, hl⟩ := Word.split_of_mem hw
  refine ⟨_, List.getElem?_eq_getElem ?_⟩
  rw [ht]
  simp only [List.length_append]
  omega

end WordContext.Placed

namespace Checked

private theorem wordContext_eq {l : LineContext} {w : Word} (h : WordContext.Placed ⟨l, w, 0⟩)
    (cursor : Int) :
    wordContext l w cursor = .ok ⟨l, w, cursor.toNat⟩ := by
  unfold wordContext
  split
  · obtain ⟨before, hb⟩ := h.exists_word (Nat.sub_le w.index 1)
    rw [item_eq hb]
    rfl
  · rfl

def trigger (ctx : WordContext) : Except Fault (Option Role) :=
  if ctx.dialect = "rs2" ∧ ctx.word.index ≤ 1 ∧ 2 ≤ ctx.line.words.length
      ∧ LineShape.isTriggerLine ctx.line.text then do
    let first ← item ctx.line.words 0
    match Trigger.ofName? first.value with
    | none => return none
    | some found =>
      if ctx.word.index = 0 then
        let second ← item ctx.line.words 1
        return some { Role.reference .trigger with extra := [("triggerName", .text second.value)] }
      else if ctx.word.value.toList.head? = some '_' then
        return some { Role.reference .category with
          extra := [("matchId", .text found.category.id),
            ("categoryName", .text (String.ofList (ctx.word.value.toList.drop 1)))] }
      else return some { category := found.category, declares := found.declares }
  else return none

private theorem trigger_eq (ctx : WordContext) : trigger ctx = .ok (Rules.trigger ctx) := by
  unfold trigger Rules.trigger
  match hw : ctx.line.words with
  | [] => simp [pure, Except.pure]
  | [w] => simp [pure, Except.pure]
  | first :: second :: rest =>
    simp only [List.length_cons, Nat.le_add_left, true_and]
    split
    · have hfirst : item (first :: second :: rest) 0 = .ok first := item_eq rfl
      have hsecond : item (first :: second :: rest) 1 = .ok second := item_eq rfl
      rw [hfirst, ok_bind, hsecond]
      cases Trigger.ofName? first.value with
      | none => rfl
      | some found =>
        dsimp only
        split
        · rfl
        · cases ctx.word.value.toList with
          | nil => rfl
          | cons c name =>
            by_cases hc : c = '_'
            · rw [hc]
              rfl
            · rw [if_neg (by simpa using hc)]
              split
              · exact absurd (List.cons.inj ‹_›).1 hc
              · rfl
    · rfl

/-- A value whose type keyword stands in some place of a list. Any simple value can be looked up as a
keyword, but no list or mapping. -/
def typed (types : List Datum) (place : Option Nat) : Except Fault Role :=
  match place with
  | none => return Rules.unknown
  | some place =>
    if types.length ≤ place then return Rules.unknown
    else do
      let type ← item types place
      if type.isTruthy then
        match type with
        | .text keyword => return .reference (Category.ofKeyword keyword)
        | .list _ | .map _ => .error .wrongKind
        | _ => return Rules.unknown
      else return Rules.unknown

private theorem typed_eq {types : List Datum} (h : ∀ type ∈ types, type = .null ∨ ∃ s, type = .text s)
    (place : Option Nat) : typed types place = .ok (Rules.typed types place) := by
  unfold typed Rules.typed
  cases place with
  | none => rfl
  | some place =>
    dsimp only [Option.bind_some]
    split
    · rename_i hp
      rw [List.getElem?_eq_none hp]
      rfl
    · rename_i hp
      have hget := List.getElem?_eq_getElem (Nat.lt_of_not_le hp)
      rw [item_eq hget, hget, ok_bind]
      rcases h _ (List.getElem_mem (Nat.lt_of_not_le hp)) with he | ⟨s, he⟩
      · rw [he]
        rfl
      · rw [he]
        by_cases hs : s = ""
        · rw [hs]
          have hk : Category.ofKeyword "" = .unknown := by decide
          simp [Datum.isTruthy, hk, Rules.unknown]
          rfl
        · simp [Datum.isTruthy, hs]
          rfl

example : typed [.list [.text "obj"]] (some 0) = .error .wrongKind :=
  rfl

def paramLine (ctx : WordContext) (index : Index) : Except Fault Role :=
  if ctx.word.index = 1 then return .reference .param
  else if ctx.word.index = 2 then do
    let word ← item ctx.line.words 1
    match index.symbols.get? word.value .param with
    | some param =>
      if param.extra.isEmpty then return Rules.unknown
      else typed [.text param.name, (param.extra.lookup "dataType").getD .null] (some 1)
    | none => return Rules.unknown
  else return Rules.unknown

def valLine [KeyOrder] (ctx : WordContext) (index : Index) : Except Fault Role :=
  match index.symbols.parent? ctx.line.file ctx.line.number Rules.anyCategory with
  | some enum =>
    if enum.extra.isEmpty then return Rules.unknown
    else typed [(enum.extra.lookup "inputType").getD .null,
        (enum.extra.lookup "outputType").getD .null] (ConfigLine.place? ctx.line.text ctx.cursor)
  | none => return Rules.unknown

def columnName [KeyOrder] (ctx : WordContext) (index : Index) (name : String) : Except Fault String :=
  if name.toList.contains ':' then return name
  else match index.symbols.parent? ctx.line.file ctx.line.number Rules.anyCategory with
    | some row =>
      if (row.extra.lookup "table").any Datum.isTruthy then do
        let table ← field row.extra "table"
        return table.display ++ ":" ++ name
      else return name
    | none => return name

private theorem columnName_eq [KeyOrder] (ctx : WordContext) (index : Index) (name : String) :
    columnName ctx index name = .ok (Rules.columnName ctx index name) := by
  unfold columnName Rules.columnName
  split
  · rfl
  · cases index.symbols.parent? ctx.line.file ctx.line.number Rules.anyCategory with
    | none => rfl
    | some row =>
      dsimp only
      cases ht : row.extra.lookup "table" with
      | none => rfl
      | some table =>
        simp only [field, ht, Option.any_some]
        split <;> rfl

def dataLine [KeyOrder] (ctx : WordContext) (index : Index) : Except Fault Role :=
  if ctx.word.index = 1 then return .reference .dbColumn
  else if 1 < ctx.line.words.length then do
    let word ← item ctx.line.words 1
    let name ← columnName ctx index word.value
    match index.symbols.get? name .dbColumn with
    | some column =>
      if column.extra.isEmpty then return Rules.unknown
      else do
        let types ← members (column.extra.lookup "dataTypes")
        typed (.text column.name :: types) (ConfigLine.place? ctx.line.text ctx.cursor)
    | none => return Rules.unknown
  else return Rules.unknown

def slotRole (ctx : WordContext) (key : String) : Except Fault (Option Role) :=
  match ConfigKey.slots? key ctx.dialect, ConfigLine.place? ctx.line.text ctx.cursor with
  | some slots, some place => do
    let slot ← itemWithin slots place
    return slot.map fun slot =>
      { category := Category.ofKeyword slot.keyword, declares := slot.declares }
  | _, _ => return none

private theorem slotRole_eq (ctx : WordContext) (key : String) :
    slotRole ctx key = .ok (do
      let slots ← ConfigKey.slots? key ctx.dialect
      let place ← ConfigLine.place? ctx.line.text ctx.cursor
      let slot ← slots[place]?
      return { category := Category.ofKeyword slot.keyword, declares := slot.declares }) := by
  unfold slotRole
  cases ConfigKey.slots? key ctx.dialect with
  | none => rfl
  | some slots =>
    cases ConfigLine.place? ctx.line.text ctx.cursor with
    | none => rfl
    | some place =>
      simp only [itemWithin_eq, ok_bind, Option.bind_eq_bind, Option.bind_some]
      cases slots[place]? <;> rfl

def configLine [KeyOrder] (ctx : WordContext) (index : Index) : Except Fault (Option Role) :=
  if LineShape.isConfigLine ctx.line.text ∧ ctx.line.words ≠ [] then do
    let key ← item ctx.line.words 0
    if ctx.word.index = 0 then return some (.reference .configKey)
    else if key.value = "param" then some <$> paramLine ctx index
    else if key.value = "val" then some <$> valLine ctx index
    else if key.value = "data" then some <$> dataLine ctx index
    else slotRole ctx key.value
  else return none

def config [KeyOrder] (ctx : WordContext) (index : Index) : Except Fault (Option Role) :=
  if LineShape.isConfigDeclaration ctx.line.text then
    return (Rules.declaredIn? ctx.dialect).map .declaration
  else configLine ctx index

section
variable {ctx : WordContext} {index : Index} (h : index.symbols.KeepsValues)
include h

private theorem paramLine_eq (hctx : ctx.Placed) : paramLine ctx index = .ok
    (Rules.paramLine ctx index) := by
  unfold paramLine Rules.paramLine
  split
  · rfl
  · split
    · rename_i hi
      obtain ⟨word, hw⟩ := hctx.exists_word (show 1 ≤ ctx.word.index by omega)
      rw [item_eq hw, hw, ok_bind, Option.bind_some]
      cases hs : index.symbols.get? word.value .param with
      | none => rfl
      | some param =>
        have htypes : ∀ type ∈ [.text param.name, (param.extra.lookup "dataType").getD .null],
            type = .null ∨ ∃ s, type = .text s :=
          List.forall_mem_cons.2 ⟨.inr ⟨_, rfl⟩,
            List.forall_mem_singleton.2 ((h.get? hs).plain (by decide))⟩
        dsimp only
        split
        · rename_i he
          rw [List.isEmpty_iff.1 he]
          rfl
        · rw [typed_eq htypes]
          rfl
    · rfl

private theorem valLine_eq [KeyOrder] : valLine ctx index = .ok (Rules.valLine ctx index) := by
  unfold valLine Rules.valLine
  cases hp : index.symbols.parent? ctx.line.file ctx.line.number Rules.anyCategory with
  | none => rfl
  | some enum =>
    dsimp only
    have htypes : ∀ type ∈ [(enum.extra.lookup "inputType").getD .null,
        (enum.extra.lookup "outputType").getD .null], type = .null ∨ ∃ s, type = .text s :=
      List.forall_mem_cons.2 ⟨(h.parent? hp).plain (by decide),
        List.forall_mem_singleton.2 ((h.parent? hp).plain (by decide))⟩
    split
    · rename_i he
      rw [List.isEmpty_iff.1 he]
      rcases ConfigLine.place? ctx.line.text ctx.cursor with _ | _ | _ | place <;> rfl
    · exact typed_eq htypes _

private theorem dataLine_eq [KeyOrder] : dataLine ctx index = .ok (Rules.dataLine ctx index) := by
  unfold dataLine Rules.dataLine
  split
  · rfl
  · cases hw : ctx.line.words[1]? with
    | none =>
      rw [if_neg (by simpa using hw)]
      rfl
    | some word =>
      rw [if_pos (List.getElem?_eq_some_iff.1 hw).1, item_eq hw, ok_bind, columnName_eq, ok_bind]
      dsimp only
      cases hs : index.symbols.get? (Rules.columnName ctx index word.value) .dbColumn with
      | none => rfl
      | some column =>
        dsimp only
        split
        · rfl
        · obtain ⟨types, ht, hmembers⟩ := members_eq (h.get? hs)
          rw [hmembers, ok_bind, ht]
          refine typed_eq (List.forall_mem_cons.2 ⟨.inr ⟨_, rfl⟩, fun type hm => ?_⟩) _
          obtain ⟨s, -, rfl⟩ := List.mem_map.1 hm
          exact .inr ⟨s, rfl⟩

private theorem configLine_eq [KeyOrder] (hctx : ctx.Placed) : configLine ctx index = .ok
    (Rules.configLine ctx index) := by
  unfold configLine Rules.configLine
  cases hline : LineShape.isConfigLine ctx.line.text with
  | false => rfl
  | true =>
    cases hw : ctx.line.words with
    | nil => rfl
    | cons key rest =>
      have hkey : item (key :: rest) 0 = .ok key := item_eq rfl
      rw [if_pos ⟨rfl, List.cons_ne_nil _ _⟩, hkey, ok_bind]
      dsimp only
      split
      · rfl
      · rw [paramLine_eq h hctx, valLine_eq h, dataLine_eq h, slotRole_eq]
        by_cases hparam : key.value = "param"
        · rw [hparam]
          rfl
        by_cases hval : key.value = "val"
        · rw [hval]
          rfl
        by_cases hdata : key.value = "data"
        · rw [hdata]
          rfl
        rw [if_neg hparam, if_neg hval, if_neg hdata]
        split
        · exact absurd ‹_› hparam
        · exact absurd ‹_› hval
        · exact absurd ‹_› hdata
        · rfl

private theorem config_eq [KeyOrder] (hctx : ctx.Placed) : config ctx index = .ok
    (Rules.config ctx index) := by
  unfold config Rules.config
  split
  · rfl
  · exact configLine_eq h hctx

end

def map (ctx : WordContext) (index : Index) : Except Fault (Option Role) :=
  if ctx.dialect = "jm2" then
    let word := ctx.word.value
    if LineShape.isMapCell word || ["OBJ", "LOC", "NPC"].contains word then
      return some Rules.unknown
    else do
      match ← holding index.sections ctx.line.number ctx.line.file with
      | some name => return some (.reference (Category.ofKeyword (Text.lower name)))
      | none => return some Rules.unknown
  else return none

private theorem map_eq (ctx : WordContext) (index : Index) : map ctx index = .ok (Rules.map ctx index) := by
  unfold map Rules.map
  rw [holding_eq]
  split
  · dsimp only
    split
    · rfl
    · cases index.sections.get? ctx.line.number ctx.line.file <;> rfl
  · rfl

def switchCase (ctx : WordContext) (index : Index) : Except Fault (Option Role) :=
  if ctx.dialect = "rs2" ∧ ctx.word.index ≠ 0 ∧ ctx.word.value ≠ "default"
      ∧ LineShape.isCaseLine ctx.line.text
      ∧ (Text.find? " :".toList ctx.line.text).any (ctx.cursor < ·) then do
    let operand ← holding index.switches ctx.line.number ctx.line.file
    match operand.bind Category.ofId? with
    | some operand => return some (.reference operand)
    | none => return some Rules.unknown
  else return none

private theorem switchCase_eq (ctx : WordContext) (index : Index) :
    switchCase ctx index = .ok (Rules.switchCase ctx index) := by
  unfold switchCase Rules.switchCase
  rw [holding_eq, ok_bind]
  split
  · cases (index.switches.get? ctx.line.number ctx.line.file).bind Category.ofId? <;> rfl
  · rfl

def paramRole (symbol : Option Symbol) (place : Nat) : Except Fault (Option Role) :=
  match symbol.bind Symbol.signature with
  | none => return none
  | some signature => do
    let param ← itemWithin signature.params place
    return param.map fun param => .reference param.category

private theorem paramRole_eq (symbol : Option Symbol) (place : Nat) :
    paramRole symbol place = .ok (Rules.paramRole symbol place) := by
  rw [Rules.paramRole_eq]
  unfold paramRole
  cases symbol.bind Symbol.signature with
  | none => rfl
  | some signature =>
    dsimp only
    rw [itemWithin_eq]
    rfl

def returnRole (ctx : WordContext) (index : Index) (place : Nat) : Except Fault (Option Role) := do
  let key ← holding index.returns ctx.line.number ctx.line.file
  match (key.bind (index.symbols.symbols[·]?)).bind Symbol.signature with
  | none => return none
  | some signature => do
    let result ← itemWithin signature.returns place
    return result.map .reference

private theorem returnRole_eq (ctx : WordContext) (index : Index) (place : Nat) :
    returnRole ctx index place = .ok (Rules.returnRole ctx index place) := by
  rw [Rules.returnRole_eq]
  unfold returnRole
  rw [holding_eq, ok_bind]
  cases index.returns.get? ctx.line.number ctx.line.file with
  | none => rfl
  | some key =>
    simp only [Option.bind_some]
    cases (index.symbols.symbols[key]?).bind Symbol.signature with
    | none => rfl
    | some signature =>
      dsimp only
      rw [itemWithin_eq]
      rfl

def charBefore (text : Line) (w : Word) : Except Fault (Option Char) :=
  if w.start = 0 then .ok none else some <$> item text (w.start - 1)

private theorem charBefore_eq {ctx : WordContext} (h : ctx.Placed) {w : Word} (hw : w ∈ ctx.line.words) :
    charBefore ctx.line.text w =
      .ok (if w.start = 0 then none else ctx.line.text[w.start - 1]?) := by
  unfold charBefore
  split
  · rfl
  · rename_i hs
    obtain ⟨c, hc⟩ := h.exists_charBefore hw hs
    rw [item_eq hc, hc]
    rfl

/-- An argument has the type that the called script or command gives to its place. The cursor may stand
before the line, where the way back to the call has no start. -/
def argument (ctx : WordContext) (cursor : Int) (index : Index) : Except Fault (Option Role) := do
  match ← (CallSite.findAt ctx.line.text cursor ctx.line.words).mapError .cursor with
  | some (some callee, place) =>
    let name := callee.value
    let before ← charBefore ctx.line.text callee
    if name = "return" then returnRole ctx index place
    else match Rules.queueOffset? name with
      | some offset =>
        if place < offset then paramRole (index.symbols.get? name .command) place
        else
          let queued := Word.at? ctx.line.words (callee.last + 2 : Nat)
          paramRole (queued.bind fun word => index.symbols.get? word.value .queue) (place - offset)
      | none =>
        let kind : Category :=
          if before = some '@' then .label else if before = some '~' then .proc else .command
        paramRole (index.symbols.get? name kind) place
  | _ => return none

private theorem argument_eq {ctx : WordContext} (h : ctx.Placed) (index : Index) :
    argument ctx ctx.cursor index = .ok (Rules.argument ctx index) := by
  unfold argument Rules.argument
  have hfind : CallSite.findAt ctx.line.text ctx.cursor ctx.line.words =
      .ok (CallSite.find? ctx.line.text ctx.cursor ctx.line.words) := by
    rw [CallSite.findAt, if_pos (Int.natCast_nonneg _), Int.toNat_natCast]
  rw [hfind]
  simp only [Except.mapError, ok_bind]
  rcases hf : CallSite.find? ctx.line.text ctx.cursor ctx.line.words with _ | ⟨_ | callee, place⟩
  · rfl
  · rfl
  · obtain ⟨⟨column, commas⟩, -, hc⟩ := Option.map_eq_some_iff.1 hf
    have hcallee : callee ∈ ctx.line.words := Word.mem_of_at? (congrArg Prod.fst hc)
    simp only [charBefore_eq h hcallee, ok_bind, returnRole_eq, paramRole_eq]
    split
    · rfl
    · cases Rules.queueOffset? callee.value with
      | none => rfl
      | some offset =>
        dsimp only
        split <;> rfl

def parameters (ctx : WordContext) (cursor : Int) (index : Index) : Except Fault (Option Role) :=
  if ctx.dialect = "rs2" then argument ctx cursor index else return none

private theorem parameters_eq {ctx : WordContext} (h : ctx.Placed) (index : Index) :
    parameters ctx ctx.cursor index = .ok (Rules.parameters ctx index) := by
  unfold parameters Rules.parameters
  rw [argument_eq h]
  split <;> rfl

/-- A rule and its checked form, which is given the cursor as it came. -/
structure CheckedRule where
  rule : Rule
  ask : WordContext → Int → Index → Except Fault (Option Role)

/-- All rules, in the order in which they are asked. The first five read nothing but the word and the
characters and the word around it. -/
def rules [KeyOrder] : List CheckedRule :=
  [⟨⟨1000, "pack", fun ctx _ => Rules.pack ctx⟩, fun ctx _ _ => .ok (Rules.pack ctx)⟩,
    ⟨⟨2000, "literal", fun ctx _ => Rules.literal ctx⟩, fun ctx _ _ => .ok (Rules.literal ctx)⟩,
    ⟨⟨3000, "command", Rules.command⟩, fun ctx _ index => .ok (Rules.command ctx index)⟩,
    ⟨⟨4000, "local_var", fun ctx _ => Rules.localVar ctx⟩, fun ctx _ _ => .ok (Rules.localVar ctx)⟩,
    ⟨⟨5000, "prev_char", fun ctx _ => Rules.sigil ctx⟩, fun ctx _ _ => .ok (Rules.sigil ctx)⟩,
    ⟨⟨6000, "trigger", fun ctx _ => Rules.trigger ctx⟩, fun ctx _ _ => trigger ctx⟩,
    ⟨⟨7000, "config", Rules.config⟩, fun ctx _ index => config ctx index⟩,
    ⟨⟨7500, "map", Rules.map⟩, fun ctx _ index => map ctx index⟩,
    ⟨⟨8000, "switch_case", Rules.switchCase⟩, fun ctx _ index => switchCase ctx index⟩,
    ⟨⟨9000, "parameters", Rules.parameters⟩, parameters⟩]

private theorem map_rule_rules [KeyOrder] : rules.map CheckedRule.rule = Rule.all :=
  rfl

def classify [KeyOrder] (ctx : WordContext) (cursor : Int) (index : Index) : Except Fault (Option Role) :=
  rules.findSomeM? fun rule => rule.ask ctx cursor index

private theorem findSomeM?_eq {α β : Type} {f : α → Except Fault (Option β)} {g : α → Option β}
    {xs : List α} (h : ∀ x ∈ xs, f x = .ok (g x)) : xs.findSomeM? f = .ok (xs.findSome? g) := by
  induction xs with
  | nil => rfl
  | cons x xs ih =>
    obtain ⟨hx, hxs⟩ := List.forall_mem_cons.1 h
    rw [List.findSomeM?_cons, List.findSome?_cons, hx, ok_bind]
    cases g x with
    | none => exact ih hxs
    | some b => rfl

private theorem classify_eq [KeyOrder] {index : Index} (h : index.symbols.KeepsValues) {ctx : WordContext}
    (hctx : ctx.Placed) : classify ctx ctx.cursor index = .ok (Rule.classify ctx index) := by
  have hask : ∀ rule ∈ rules, rule.ask ctx ctx.cursor index = .ok (rule.rule.ask ctx index) := by
    simp only [rules, List.forall_mem_cons, List.not_mem_nil, false_implies, implies_true, and_true,
      true_and]
    exact ⟨trigger_eq ctx, config_eq h hctx, map_eq ctx index, switchCase_eq ctx index,
      parameters_eq hctx index⟩
  rw [classify, findSomeM?_eq hask, Rule.classify, ← map_rule_rules, List.findSome?_map]
  rfl

def packId (c : Category) (ctx : WordContext) : Except Fault (Option String) :=
  if ctx.dialect = "pack" ∧ ctx.word.index = 1 ∧ c ≠ .unknown then do
    let id ← item ctx.line.words 0
    return some id.value
  else return none

private theorem packId_eq {ctx : WordContext} (h : ctx.Placed) (c : Category) :
    packId c ctx = .ok (Annotations.packIdOf? c ctx) := by
  unfold packId Annotations.packIdOf?
  split
  · obtain ⟨id, hid⟩ := h.exists_word (Nat.zero_le _)
    rw [item_eq hid, List.head?_eq_getElem?, hid]
    rfl
  · rfl

def annotations [KeyOrder] (c : Category) (ctx : WordContext) (index : Index) :
    Except Fault (Option Annotations) :=
  match Annotations.ofWord? c ctx index with
  | none => return none
  | some a => do
    let id ← packId c ctx
    return some { a with packId := id }

private theorem annotations_eq [KeyOrder] {ctx : WordContext} (h : ctx.Placed) (c : Category)
    (index : Index) :
    annotations c ctx index = .ok (Annotations.of? c ctx index) := by
  unfold annotations Annotations.of?
  rw [packId_eq h]
  cases Annotations.ofWord? c ctx index <;> rfl

def ofContext [KeyOrder] (ctx : WordContext) (cursor : Int) (index : Index) : Except Fault (Option Match) :=
  if ctx.word.value = "null" then return none
  else do
    match ← classify ctx cursor index with
    | none => return none
    | some role =>
      match ← annotations role.category ctx index with
      | none => return none
      | some a => return some ⟨role, a, ctx⟩

def onColumn [KeyOrder] (index : Index) (line : Line) (number : Int) (file : String) (column : Int) :
    Except Fault (Option Match) :=
  if line = [] ∨ file = "" then return none
  else do
    let context ← lineContext line number file
    match Word.at? context.words column with
    | none => return none
    | some word => do
      let ctx ← wordContext context word column
      ofContext ctx column index

def onLine [KeyOrder] (index : Index) (line : Line) (number : Int) (file : String) :
    Except Fault (List (Option Match)) :=
  if line = [] ∨ file = "" then return []
  else do
    let context ← lineContext line number file
    context.words.mapM fun word => do
      let ctx ← wordContext context word word.start
      ofContext ctx word.start index

theorem mapM_eq {α β : Type} {f : α → Except Fault β} {g : α → β} {xs : List α}
    (h : ∀ x ∈ xs, f x = .ok (g x)) : xs.mapM f = .ok (xs.map g) := by
  induction xs with
  | nil => rfl
  | cons x xs ih =>
    obtain ⟨hx, hxs⟩ := List.forall_mem_cons.1 h
    rw [List.mapM_cons, hx, ok_bind, ih hxs]
    rfl

private theorem placed_ofLine {line : Line} {number : Int} {file : String} {w : Word} (cursor : Nat)
    (h : w ∈ (LineContext.ofLine line number file).words) :
    WordContext.Placed ⟨LineContext.ofLine line number file, w, cursor⟩ :=
  ⟨rfl, h⟩

section
variable {index : Index} (h : index.symbols.KeepsValues)
include h

private theorem ofContext_eq [KeyOrder] {ctx : WordContext} (hctx : ctx.Placed) :
    ofContext ctx ctx.cursor index = .ok (Match.ofContext? ctx index) := by
  unfold ofContext Match.ofContext?
  split
  · rfl
  · rw [classify_eq h hctx, ok_bind]
    cases Rule.classify ctx index with
    | none => rfl
    | some role =>
      simp only [annotations_eq hctx, ok_bind, Option.bind_eq_bind, Option.bind_some]
      cases Annotations.of? role.category ctx index <;> rfl

/-- No read fails on any column of any line, and the answer is that of the running definition. -/
theorem onColumn_eq [KeyOrder] (line : Line) (number : Int) (file : String) (column : Int) :
    onColumn index line number file column = .ok (Match.onColumn? index line number file column) := by
  unfold onColumn Match.onColumn?
  split
  · rfl
  · rw [lineContext_eq, ok_bind]
    dsimp only
    cases hw : Word.at? (LineContext.ofLine line number file).words column with
    | none => rfl
    | some word =>
      have hmem := Word.mem_of_at? hw
      have hcolumn : ((column.toNat : Nat) : Int) = column :=
        Int.toNat_of_nonneg (Word.nonneg_of_at? hw)
      have hctx := ofContext_eq h (placed_ofLine column.toNat hmem)
      simp only [hcolumn] at hctx
      simp only [wordContext_eq (placed_ofLine 0 hmem), ok_bind, Option.bind_eq_bind, Option.bind_some]
      exact hctx

/-- No read fails for any word of any line, and the answers are those of the running definition. -/
theorem onLine_eq [KeyOrder] (line : Line) (number : Int) (file : String) :
    onLine index line number file = .ok (Match.onLine index line number file) := by
  unfold onLine Match.onLine
  split
  · rfl
  · rw [lineContext_eq, ok_bind]
    refine mapM_eq fun word hw => ?_
    rw [wordContext_eq (placed_ofLine 0 hw), ok_bind]
    exact ofContext_eq h (placed_ofLine word.start hw)

end

end Checked

end ScriptIndex
