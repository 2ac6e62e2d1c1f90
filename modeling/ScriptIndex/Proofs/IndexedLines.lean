import ScriptIndex.Workspace
import ScriptIndex.Proofs.RecordedText

/-! Indexing as a run over lines. A line finds its words in the index as it is and puts them into it;
no step fails, so that indexing files is a fold over all their lines. -/
namespace ScriptIndex

/-- A line of a file. -/
structure FileLine where
  file : String
  lines : List Line
  number : Nat
  text : Line
  here : lines[number]? = some text

namespace FileLine

def linesFrom (file : String) (lines : List Line) (number : Nat) :
    (rest : List Line) → lines.drop number = rest → List FileLine
  | [], _ => []
  | text :: rest, h =>
    ⟨file, lines, number, text, by rw [← List.head?_drop, h]; rfl⟩ ::
      linesFrom file lines (number + 1) rest (by rw [← List.drop_drop, h]; rfl)

def ofFile (file text : String) : List FileLine :=
  let lines := Text.splitLines text.toList
  linesFrom file lines 0 lines List.drop_zero

def ofFiles (files : List (String × String)) : List FileLine :=
  files.flatMap fun (file, text) => ofFile file text

def words (l : FileLine) : List Word :=
  Word.ofLine (LineShape.withoutComment l.text)

def context (l : FileLine) (w : Word) : WordContext :=
  ⟨LineContext.ofLine l.text l.number l.file, w, w.start⟩

end FileLine

/-- A classified word that is put into the index: it stands in a file with a name, and symbols of its
category are kept. -/
structure Entry where
  place : FileLine
  found : Match
  named : place.file ≠ ""
  cached : found.role.category.profile.cached = true

namespace Entry

def of? (l : FileLine) (m : Match) : Option Entry :=
  if h : l.file ≠ "" ∧ m.role.category.profile.cached = true then some ⟨l, m, h.1, h.2⟩ else none

def file (e : Entry) : String :=
  (Path.parse e.place.file).text

def key? (e : Entry) : Option String :=
  Symbol.key? e.found.word e.found.role.category

def declares (e : Entry) : Bool :=
  e.found.role.declares

def position (e : Entry) : Position :=
  ⟨e.place.number, Index.writtenColumn e.found⟩

def location (e : Entry) : Location :=
  .at e.place.file e.place.number e.found.annotations.start 0

def placeholder (e : Entry) : Symbol :=
  Symbol.placeholder e.found.word e.found.role

def declared (e : Entry) : Symbol :=
  (Symbol.declared e.found.word e.found.role e.location
    (some (Index.excerptAt e.place.lines e.place.number))).toOption.getD e.placeholder

theorem fileKey?_eq (e : Entry) : fileKey? e.place.file = some e.file :=
  if_neg e.named

end Entry

namespace Excerpt

def HasStart (e : Excerpt) : Prop :=
  -(e.lines.length : Int) ≤ e.start ∧ e.start < e.lines.length

private theorem exists_line? {e : Excerpt} {i : Int} (hlow : -(e.lines.length : Int) ≤ i)
    (hhigh : i < e.lines.length) : ∃ line, e.line? i = some line := by
  unfold line?
  by_cases h0 : 0 ≤ i
  · rw [if_pos h0]
    exact ⟨e.lines[i.toNat], List.getElem?_eq_getElem (by omega)⟩
  · rw [if_neg h0, if_pos (by omega)]
    exact ⟨e.lines[(e.lines.length + i).toNat], List.getElem?_eq_getElem (by omega)⟩

private theorem hasStart_excerptAt {lines : List Line} {number : Nat} (h : number < lines.length) :
    (Index.excerptAt lines number).HasStart := by
  simp only [HasStart, Index.excerptAt, List.length_drop]
  split <;> constructor <;> omega

end Excerpt

namespace Symbol

/-- What the lines around a declaration say can be read where the declaring line is there. -/
private theorem readExcerpt_ok {e : Excerpt} (h : e.HasStart) (s : Symbol) :
    ∃ t, readExcerpt e s = .ok t := by
  obtain ⟨hstart, hlength⟩ := h
  have hinfo : ∃ info, infoAbove e = .ok info := by
    unfold infoAbove
    split
    · exact ⟨_, rfl⟩
    · obtain ⟨line, hl⟩ := Excerpt.exists_line? (e := e) (i := e.start - 1) (by omega) (by omega)
      rw [hl]
      dsimp only
      split <;> exact ⟨_, rfl⟩
  have hsignature : ∃ signature, signatureOn e = .ok signature := by
    obtain ⟨line, hl⟩ := Excerpt.exists_line? hstart hlength
    unfold signatureOn
    rw [if_pos hlength, hl]
    exact ⟨_, rfl⟩
  have hcode (c : Category) (d : Display) : ∃ code, codeOf c d e = .ok code := by
    unfold codeOf
    dsimp only
    split
    · rename_i hc
      obtain ⟨line, hl⟩ := Excerpt.exists_line? (e := e) (i := e.start + d.skippedLines) (by omega) hc.2
      rw [hl]
      cases line <;> exact ⟨_, rfl⟩
    · exact ⟨_, rfl⟩
  obtain ⟨info, hinfo⟩ := hinfo
  obtain ⟨signature, hsignature⟩ := hsignature
  unfold readExcerpt
  rw [hinfo]
  cases s.category.profile.display with
  | none => exact ⟨_, rfl⟩
  | some d =>
    obtain ⟨code, hcode⟩ := hcode s.category d
    simp only [hsignature, hcode, bind, Except.bind]
    split <;> split <;> exact ⟨_, rfl⟩

/-- Symbols of a category that is kept are described without fail. -/
theorem describe_ok {s : Symbol} (h : s.category.profile.cached = true) : ∃ t, s.describe = .ok t := by
  unfold describe
  split
  · rename_i hc
    rw [hc] at h
    cases h
  · rename_i hc
    rw [hc] at h
    cases h
  all_goals exact ⟨_, rfl⟩

/-- Symbols of a category that is kept are built without fail where the declaring line is there. -/
theorem declared_ok (name : String) {role : Role} (location : Location) {e : Excerpt}
    (hcached : role.category.profile.cached = true) (he : e.HasStart) :
    ∃ s, declared name role location (some e) = .ok s := by
  obtain ⟨read, hr⟩ := readExcerpt_ok he
    { name := name, category := role.category, declaration := some location,
      fileType := (Path.parse location.file).extension, extra := role.extra }
  have hc := (readExcerpt_samePlaces hr).category
  obtain ⟨s, hs⟩ := describe_ok (s := read) (by rw [hc]; exact hcached)
  exact ⟨s, bind_eq_ok.2 ⟨read, hr, hs⟩⟩

end Symbol

namespace Entry

theorem declared_eq (e : Entry) :
    Symbol.declared e.found.word e.found.role e.location
      (some (Index.excerptAt e.place.lines e.place.number)) = .ok e.declared := by
  have hnumber : e.place.number < e.place.lines.length :=
    (List.getElem?_eq_some_iff.1 e.place.here).1
  obtain ⟨s, hs⟩ := Symbol.declared_ok e.found.word e.location e.cached
    (Excerpt.hasStart_excerptAt hnumber)
  rw [hs, declared, hs]
  rfl

theorem declared_declaration (e : Entry) : e.declared.declaration = some e.location :=
  (Symbol.declared_places e.declared_eq).2.2.1

theorem category_ne_unknown (e : Entry) : e.found.role.category ≠ .unknown := by
  intro hc
  have h := e.cached
  rw [hc] at h
  cases h

end Entry

namespace SymbolTable

def put (t : SymbolTable) (e : Entry) : SymbolTable :=
  match e.key? with
  | none => t
  | some key =>
    if e.declares then
      if (t.declarationOf key).isSome then t
      else t.recordDeclaration key e.file (t.inherit key e.declared) e.position
    else t.record key e.file ((t.symbols[key]?).getD e.placeholder) e.position
      e.found.annotations.packId

theorem refer_eq_put (t : SymbolTable) {e : Entry} (h : e.declares = false) :
    t.refer e.found.word e.found.role e.place.file ⟨e.place.number,
      Index.referenceColumn e.found.annotations⟩ e.found.annotations.packId = t.put e := by
  have hposition : e.position = ⟨e.place.number, Index.referenceColumn e.found.annotations⟩ := by
    rw [Entry.position, Index.writtenColumn, if_neg (by rw [← Entry.declares, h]; simp)]
  have hkey : e.key? = Symbol.key? e.found.word e.found.role.category := rfl
  rw [← hposition, put, refer, e.fileKey?_eq, ← hkey]
  cases e.key? with
  | none => rfl
  | some key =>
    simp only [h, Bool.false_eq_true, if_false, e.category_ne_unknown]
    cases t.symbols[key]? <;> rfl

theorem declare_eq_put (t : SymbolTable) {e : Entry} (h : e.declares = true) :
    t.declare e.found.word e.found.role e.location (Index.excerptAt e.place.lines e.place.number) =
      .ok (t.put e, e.key?.bind ((t.put e).symbols[·]?)) := by
  have hposition : e.location.span.start = e.position := by
    rw [Entry.position, Index.writtenColumn, ← Entry.declares, if_pos h]
    rfl
  have hreferences : e.declared.references = ∅ := (Symbol.declared_places e.declared_eq).2.2.2
  have hkey : e.key? = Symbol.key? e.found.word e.found.role.category := rfl
  have hfile : fileKey? e.location.file = some e.file := e.fileKey?_eq
  rw [put, declare, hfile, ← hkey]
  cases e.key? with
  | none => rfl
  | some key =>
    simp only [h, if_true, Option.bind_some]
    cases hs : t.symbols[key]? with
    | none =>
      have hn : t.declarationOf key = none := by simp [declarationOf, hs]
      have hinherit : t.inherit key e.declared = e.declared := by
        simp [inherit, referencesOf, hs, ← hreferences]
      simp [hn, e.declared_eq, hposition, hinherit, bind, Except.bind, pure, Except.pure]
    | some current =>
      rw [declarationOf_of_some hs]
      by_cases hd : current.declaration.isSome = true
      · simp [hd, hs]
      · have hinherit : t.inherit key e.declared = { e.declared with
            references := current.references
            packId := (givenId? current.packId).or e.declared.packId } := by
          simp [inherit, referencesOf_of_some hs, hs]
        simp [hd, e.declared_eq, hposition, hinherit, bind, Except.bind, pure, Except.pure]

end SymbolTable

namespace Entry

def resultsKey? (t : SymbolTable) (e : Entry) : Option String :=
  if e.declares && ScriptCache.hasEnding ".rs2" e.place.file && LineShape.isTriggerLine e.place.text
  then e.key?.filter fun key =>
    (t.symbols[key]?).any fun s => s.signature.any fun s => !s.returns.isEmpty
  else none

end Entry

namespace Index

def put (i : Index) (e : Entry) : Index :=
  { i with
    symbols := i.symbols.put e
    returns := match e.resultsKey? (i.symbols.put e) with
      | some key => i.returns.put (e.place.number + 1) key e.place.file
      | none => i.returns }

def entryOf? [KeyOrder] (i : Index) (l : FileLine) (w : Word) : Option Entry :=
  (Match.ofContext? (l.context w) (i.noteLine l.file l.number l.text)).bind (Entry.of? l)

def found [KeyOrder] (i : Index) (l : FileLine) : List Entry :=
  l.words.filterMap (i.entryOf? l)

def next [KeyOrder] (i : Index) (l : FileLine) : Index :=
  (i.found l).foldl put (i.noteLine l.file l.number l.text)

def after [KeyOrder] (i : Index) (ls : List FileLine) : Index :=
  ls.foldl next i

private theorem writeDeclaration_eq (i : Index) {e : Entry} (h : e.declares = true) :
    i.writeDeclaration e.place.file e.place.lines e.place.number e.place.text e.found =
      .ok (i.put e) := by
  have hd := i.symbols.declare_eq_put h
  unfold Entry.location at hd
  rw [writeDeclaration_eq_bind]
  unfold put Entry.resultsKey?
  simp only [hd, h, Bool.true_and, bind, Except.bind]
  unfold Entry.key?
  cases hk : Symbol.key? e.found.word e.found.role.category with
  | none => simp
  | some key =>
    simp only [Option.bind_some, Option.getD_some, Option.filter]
    by_cases hr : (((i.symbols.put e).symbols[key]?).any fun s => s.signature.any fun s =>
        !s.returns.isEmpty) = true
    · simp only [hr, Bool.and_true, if_true]
      split <;> rfl
    · simp [hr]

private theorem writeReference_eq (i : Index) {e : Entry} (h : e.declares = false) :
    i.writeReference e.place.file e.place.number e.found = i.put e := by
  rw [writeReference_eq_refer]
  unfold put Entry.resultsKey?
  simp [h, i.symbols.refer_eq_put h]

private theorem writeMatch_eq (i : Index) {l : FileLine} (hl : l.file ≠ "") (m : Match) :
    writeMatch l.file l.lines l.number l.text i m = .ok ((Entry.of? l m).elim i i.put) := by
  unfold writeMatch Entry.of?
  by_cases hc : m.role.category.profile.cached = true
  · simp only [hc, if_true, hl, ne_eq, not_false_eq_true, and_self, dite_true, Option.elim_some]
    by_cases hd : m.role.declares = true
    · rw [if_pos hd]
      exact i.writeDeclaration_eq (e := ⟨l, m, hl, hc⟩) hd
    · rw [if_neg hd]
      exact congrArg Except.ok
        (i.writeReference_eq (e := ⟨l, m, hl, hc⟩) (Bool.eq_false_iff.2 hd))
  · simp [hc]

/-- Indexing a line never fails: it puts the entries that the line makes. -/
theorem writeLine_eq [KeyOrder] (i : Index) (l : FileLine) :
    writeLine l.file l.lines i l.number l.text = .ok (i.next l) := by
  have hfold (ms : List Match) (hl : l.file ≠ "") (k : Index) :
      ms.foldlM (writeMatch l.file l.lines l.number l.text) k =
        .ok ((ms.filterMap (Entry.of? l)).foldl put k) := by
    induction ms generalizing k with
    | nil => rfl
    | cons m ms ih =>
      rw [List.foldlM_cons, writeMatch_eq k hl m]
      cases hm : Entry.of? l m with
      | none => rw [List.filterMap_cons_none hm]; exact ih k
      | some e => rw [List.filterMap_cons_some hm]; exact ih (k.put e)
  unfold writeLine next found Match.onLine
  by_cases hl : l.file = ""
  · have hnone : l.words.filterMap (i.entryOf? l) = [] := by
      simp [entryOf?, Entry.of?, hl]
    rw [hnone]
    simp only [hl, or_true, if_true, List.filterMap_nil]
    rfl
  · by_cases hline : l.text = []
    · have hwords : l.words = [] := by
        simp [FileLine.words, hline, LineShape.withoutComment, Text.before, Text.cut?, Word.ofLine,
          Word.scan]
      simp only [hline, true_or, if_true, List.filterMap_nil, hwords]
      rfl
    · simp only [hl, hline, or_self, if_false]
      rw [hfold _ hl, List.filterMap_map, List.filterMap_filterMap]
      rfl

/-- Indexing a file never fails: it goes through the lines of the file. -/
theorem parse_eq [KeyOrder] (i : Index) (file text : String) :
    i.parse file text = .ok (i.after (FileLine.ofFile file text)) := by
  have hlines (lines rest : List Line) (number : Nat) (i : Index) (h : lines.drop number = rest) :
      writeLines file lines i number rest =
        .ok (i.after (FileLine.linesFrom file lines number rest h)) := by
    induction rest generalizing number i with
    | nil => rfl
    | cons line rest ih =>
      rw [writeLines, FileLine.linesFrom, i.writeLine_eq ⟨file, lines, number, line, _⟩]
      exact ih (number + 1) _ _
  exact hlines _ _ 0 i List.drop_zero

theorem after_append [KeyOrder] (i : Index) (ls ms : List FileLine) :
    i.after (ls ++ ms) = (i.after ls).after ms :=
  List.foldl_append

end Index

namespace Workspace

/-- Indexing files never fails: it goes through all their lines. -/
theorem indexFiles_eq [KeyOrder] (i : Index) (files : List (String × String)) :
    indexFiles i files = .ok (i.after (FileLine.ofFiles files)) := by
  induction files generalizing i with
  | nil => rfl
  | cons f files ih =>
    unfold indexFiles at ih ⊢
    rw [List.foldlM_cons]
    dsimp only
    rw [Index.parse_eq, FileLine.ofFiles, List.flatMap_cons, Index.after_append]
    exact ih _

theorem indexTwice_eq [KeyOrder] (i : Index) (files : List (String × String)) :
    indexTwice i files = .ok ((i.after (FileLine.ofFiles files)).after (FileLine.ofFiles files)) := by
  unfold indexTwice
  rw [indexFiles_eq]
  exact indexFiles_eq _ files

end Workspace

end ScriptIndex
