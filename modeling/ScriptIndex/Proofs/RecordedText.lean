import ScriptIndex.Proofs.IndexingRuns
import ScriptIndex.Proofs.Pieces
import ScriptIndex.Proofs.Words
import ScriptIndex.Query

/-! The text at the positions that indexing records. A rename replaces, at each of them, as many columns
as its name shows behind the first colon; this says for which words that stretch holds this very text. -/
namespace ScriptIndex

namespace Query

/-- The part of a name that a rename replaces: what stands behind the first colon. -/
def visible (name : String) : List Char :=
  ((Text.cut? [':'] name.toList).map Prod.snd).getD name.toList

private theorem length_visible (name : String) : (visible name).length = visibleLength name := by
  unfold visible visibleLength Text.find?
  cases h : Text.cut? [':'] name.toList with
  | none => simp [String.length_toList]
  | some pieces =>
    obtain ⟨before, after⟩ := pieces
    have hl := congrArg List.length (Text.cut?_append h)
    simp only [List.length_append, List.length_cons, List.length_nil, String.length_toList] at hl
    simp only [Option.map_some, Option.getD_some]
    omega

private theorem visible_of_not_mem {name : String} (h : ':' ∉ name.toList) : visible name =
    name.toList := by
  simp [visible, Text.cut?_singleton_none h]

private theorem visible_of_eq {name : String} {a b : List Char} (ha : ':' ∉ a)
    (h : name.toList = a ++ ':' :: b) : visible name = b := by
  simp [visible, h, Text.cut?_singleton ha]

/-- The stretch from a column on holds the visible part exactly if the line goes on with it there. -/
private theorem take_eq_visible {line : Line} {column : Nat} {name : String} :
    (line.drop column).take (visibleLength name) = visible name ↔
      visible name <+: line.drop column := by
  rw [List.prefix_iff_eq_take, length_visible]
  exact eq_comm

end Query

namespace Annotations

/-- How a name is made of a word: it is a stretch of the word, or the whole word behind a qualifier and
a colon. -/
inductive Layout (w : Word) (a : Annotations) : Prop where
  | kept (front back : List Char) : w.value.toList = front ++ a.word.toList ++ back →
      a.start = w.start + front.length → (a.isModified = false → front = []) → Layout w a
  | completed (qualifier : List Char) : a.word.toList = qualifier ++ ':' :: w.value.toList →
      a.start = w.start → a.isModified = true → Layout w a

theorem Layout.congr {w : Word} {a b : Annotations} (h : Layout w a) (hw : b.word = a.word)
    (hs : b.start = a.start) (hm : b.isModified = a.isModified) : Layout w b := by
  cases h with
  | kept front back hv hst hf => exact .kept front back (hw ▸ hv) (hs ▸ hst) (hm ▸ hf)
  | completed qualifier hv hst ht => exact .completed qualifier (hw ▸ hv) (hs ▸ hst) (hm ▸ ht)

private theorem layout_plain (w : Word) : Layout w (plain w) :=
  .kept [] [] (by simp [plain]) rfl fun _ => rfl

private theorem layout_qualified (w : Word) (qualifier : String) : Layout w (qualified w qualifier) :=
  .completed qualifier.toList (by simp [qualified]) rfl rfl

private theorem layout_withoutFront {w : Word} {front : String} (h : front.toList <+: w.value.toList) :
    Layout w (withoutFront w front) := by
  obtain ⟨rest, hr⟩ := h
  refine .kept front.toList [] ?_ ?_ ?_
  · simp [withoutFront, ← hr, ← String.length_toList]
  · rw [String.length_toList]
    rfl
  · simp [withoutFront]

private theorem layout_withoutBack (w : Word) (n : Nat) : Layout w (withoutBack w n) :=
  .kept [] (w.value.toList.drop (w.value.toList.length - n)) (by simp [withoutBack]) rfl fun _ => rfl

/-- Every name is made of its word in one of the two ways. -/
theorem layout_of_ofWord? [KeyOrder] {c : Category} {ctx : WordContext} {index : Index} {a : Annotations}
    (h : ofWord? c ctx index = some a) : Layout ctx.word a := by
  unfold ofWord? at h
  dsimp only at h
  split at h
  · split at h
    · cases h
      exact layout_plain _
    · cases h
      exact layout_qualified _ _
  · split at h
    · cases h
      exact layout_plain _
    · obtain ⟨table, -, rfl⟩ := Option.map_eq_some_iff.1 h
      exact layout_qualified _ table
  · split at h
    · rename_i hs
      cases h
      exact (layout_withoutFront (List.isPrefixOf_iff_prefix.1 hs)).congr rfl rfl rfl
    · cases h
      exact layout_plain _
  · split at h
    · rename_i hs
      cases h
      exact layout_withoutFront (List.isPrefixOf_iff_prefix.1 hs)
    · cases h
      exact layout_plain _
  · split at h
    · cases h
      exact layout_withoutBack _ 2
    · cases h
      exact layout_plain _
  · cases h
    exact layout_plain _

end Annotations

namespace Match

/-- A classified word is a word of its line, and its name is made of that word. -/
theorem layout_of_mem_onLine [KeyOrder] {index : Index} {line : Line} {number : Int} {file : String}
    {m : Match}
    (h : some m ∈ onLine index line number file) :
    m.context.word ∈ Word.ofLine (LineShape.withoutComment line) ∧
      Annotations.Layout m.context.word m.annotations := by
  unfold onLine at h
  split at h
  · simp at h
  · obtain ⟨w, hw, hm⟩ := List.mem_map.1 h
    unfold ofContext? at hm
    split at hm
    · cases hm
    · obtain ⟨role, -, hm⟩ := Option.bind_eq_some_iff.1 hm
      obtain ⟨a, ha, hm⟩ := Option.bind_eq_some_iff.1 hm
      cases hm
      obtain ⟨b, hb, rfl⟩ := Option.map_eq_some_iff.1 ha
      exact ⟨hw, (Annotations.layout_of_ofWord? hb).congr rfl rfl rfl⟩

end Match

namespace Index

/-- The column at which indexing records a classified word. -/
def writtenColumn (m : Match) : Nat :=
  if m.role.declares then m.annotations.start else referenceColumn m.annotations

/-- The words whose recorded position shows what a rename replaces. -/
inductive Aligned (line : Line) (m : Match) : Prop where
  /-- The name holds no colon. -/
  | bare : ':' ∉ m.word.toList → Aligned line m
  /-- The name is referred to as it is written; its position is that of the part behind the colon. -/
  | reference : m.role.declares = false → m.annotations.isModified = false → Aligned line m
  /-- The part behind the colon also starts the part before it. -/
  | repeated (a b : List Char) : ':' ∉ a → m.word.toList = a ++ ':' :: b → b <+: a → Aligned line m
  /-- A qualifier was put before the written word, and the line goes on behind the word as the name
  does. It does so at once if the qualifier holds no colon of its own: nothing is then left over. -/
  | completed (a rest : List Char) : ':' ∉ a →
      m.word.toList = a ++ ':' :: (m.context.word.value.toList ++ rest) →
      rest <+: line.drop (m.context.word.start + m.context.word.value.length) → Aligned line m

variable {line : Line} {m : Match}

theorem referenceColumn_of_modified {a : Annotations} (h : a.isModified = true) :
    referenceColumn a = a.start := by
  simp [referenceColumn, h]

theorem referenceColumn_of_bare {a : Annotations} (h : ':' ∉ a.word.toList) :
    referenceColumn a = a.start := by
  simp [referenceColumn, Text.find?, Text.cut?_singleton_none h]

theorem referenceColumn_of_written {a : Annotations} {x b : List Char} (hm : a.isModified = false)
    (hx : ':' ∉ x) (hne : x ≠ []) (h : a.word.toList = x ++ ':' :: b) :
    referenceColumn a = a.start + x.length + 1 := by
  obtain ⟨n, hn⟩ := Nat.exists_eq_succ_of_ne_zero (mt List.length_eq_zero_iff.1 hne)
  unfold referenceColumn
  simp only [hm, h, Text.find?_singleton hx, hn, Bool.false_eq_true, if_false]
  omega

theorem writtenColumn_of_start (h : referenceColumn m.annotations = m.annotations.start) :
    writtenColumn m = m.annotations.start := by
  simp [writtenColumn, h]

/-- A name that holds a colon and is a stretch of a word is split by it in two. -/
private theorem split_at_colon {text front name back : List Char} (hf : Word.Form text)
    (ht : text = front ++ name ++ back) (hc : ':' ∈ name) :
    ∃ a b, name = a ++ ':' :: b ∧ ':' ∉ a ∧ ':' ∉ b := by
  obtain ⟨a, b, rfl⟩ := List.append_of_mem hc
  have hle := hf.count_colon_le
  simp only [ht, List.count_append, List.count_cons_self] at hle
  refine ⟨a, b, rfl, ?_, ?_⟩
  · exact List.count_eq_zero.1 (by omega)
  · exact List.count_eq_zero.1 (by omega)

/-- A word of a line without its comment stands on the line itself. -/
private theorem word_prefix_line {w : Word} (h : w ∈ Word.ofLine (LineShape.withoutComment line)) :
    w.value.toList <+: line.drop w.start := by
  refine (Word.prefix_of_mem h).trans ?_
  obtain ⟨comment, hc⟩ := Text.before_prefix "//".toList line
  conv => rhs; rw [← hc, List.drop_append]
  exact List.prefix_append _ _

/-- A name that is a stretch of its word stands on the line at its first column. -/
private theorem name_prefix_line {front back : List Char}
    (hw : m.context.word ∈ Word.ofLine (LineShape.withoutComment line))
    (hv : m.context.word.value.toList = front ++ m.word.toList ++ back)
    (hs : m.annotations.start = m.context.word.start + front.length) :
    m.word.toList <+: line.drop m.annotations.start := by
  obtain ⟨rest, hr⟩ := word_prefix_line hw
  rw [hs, ← List.drop_drop, ← hr, hv, List.append_assoc, List.append_assoc, List.drop_left]
  exact List.prefix_append _ _

/-- Where the column is not moved, a name that is a stretch of its word is aligned only if its two
parts start alike. -/
private theorem aligned_iff_repeated {front back a b : List Char}
    (hv : m.context.word.value.toList = front ++ m.word.toList ++ back)
    (ha : ':' ∉ a) (hab : m.word.toList = a ++ ':' :: b)
    (hp : ¬ (m.role.declares = false ∧ m.annotations.isModified = false)) :
    Aligned line m ↔ b <+: a := by
  refine ⟨fun h => ?_, fun h => .repeated a b ha hab h⟩
  cases h with
  | bare h => exact absurd (by simp [hab]) h
  | reference hd hm => exact absurd ⟨hd, hm⟩ hp
  | repeated a' b' ha' hab' h =>
    have hb : b' = b := (Query.visible_of_eq ha' hab').symm.trans (Query.visible_of_eq ha hab)
    subst hb
    rwa [List.append_cancel_right (hab.symm.trans hab')]
  | completed a' rest ha' hab' h =>
    -- A name with the whole word behind a colon is longer than the word.
    have hlong := congrArg List.length hab'
    rw [hv] at hlong
    simp only [List.length_append, List.length_cons] at hlong
    omega

private theorem visible_iff_of_kept {front back : List Char}
    (hw : m.context.word ∈ Word.ofLine (LineShape.withoutComment line))
    (hv : m.context.word.value.toList = front ++ m.word.toList ++ back)
    (hs : m.annotations.start = m.context.word.start + front.length)
    (hf : m.annotations.isModified = false → front = []) :
    Query.visible m.word <+: line.drop (writtenColumn m) ↔ Aligned line m := by
  have hform := Word.form_of_mem hw
  have hline := name_prefix_line hw hv hs
  by_cases hc : ':' ∈ m.word.toList
  · obtain ⟨a, b, hab, ha, hb⟩ := split_at_colon hform hv hc
    obtain ⟨rest, hr⟩ := hline
    rw [Query.visible_of_eq ha hab]
    by_cases hp : m.role.declares = false ∧ m.annotations.isModified = false
    · -- The word is referred to as it is written, so its column is moved behind the colon.
      obtain ⟨hd, hm⟩ := hp
      have hne : a ≠ [] := by
        rintro rfl
        rw [hf hm] at hv
        exact hform.head?_ne_colon (by simp [hv, hab])
      have hcol : writtenColumn m = m.annotations.start + (a.length + 1) := by
        simp [writtenColumn, hd, referenceColumn_of_written hm ha hne hab, Nat.add_assoc]
      refine ⟨fun _ => .reference hd hm, fun _ => ?_⟩
      rw [hcol, ← List.drop_drop, ← hr, hab]
      simp
    · have hcol : writtenColumn m = m.annotations.start := by
        unfold writtenColumn
        split
        · rfl
        · rename_i hd
          exact referenceColumn_of_modified (by simpa [hd] using hp)
      rw [hcol, ← hr, hab, List.append_assoc, List.cons_append, Text.prefix_append_mark hb]
      exact (aligned_iff_repeated hv ha hab hp).symm
  · rw [Query.visible_of_not_mem hc, writtenColumn_of_start (referenceColumn_of_bare hc)]
    exact ⟨fun _ => .bare hc, fun _ => hline⟩

private theorem visible_iff_of_completed {qualifier : List Char}
    (hw : m.context.word ∈ Word.ofLine (LineShape.withoutComment line))
    (hv : m.word.toList = qualifier ++ ':' :: m.context.word.value.toList)
    (hs : m.annotations.start = m.context.word.start) (hm : m.annotations.isModified = true) :
    Query.visible m.word <+: line.drop (writtenColumn m) ↔ Aligned line m := by
  obtain ⟨rest, hr⟩ := word_prefix_line hw
  have hrest : line.drop (m.context.word.start + m.context.word.value.length) = rest := by
    rw [← List.drop_drop, ← hr, ← String.length_toList, List.drop_left]
  rw [writtenColumn_of_start (referenceColumn_of_modified hm), hs, ← hr]
  constructor
  · intro h
    obtain ⟨a, b, hab, ha⟩ := List.eq_append_cons_of_mem (show ':' ∈ m.word.toList by simp [hv])
    rw [Query.visible_of_eq ha hab] at h
    have hlen : m.context.word.value.toList.length ≤ b.length := by
      rcases Text.behind_mark_cases ha (hv.symm.trans hab) with rfl | ⟨r, rfl⟩
      · exact Nat.le_refl _
      · simp only [List.length_append, List.length_cons]
        omega
    -- What a rename replaces is at least as long as the word, so the line has the word and goes on.
    obtain ⟨more, rfl⟩ := List.prefix_of_prefix_length_le (List.prefix_append _ rest) h hlen
    exact .completed a more ha hab (hrest ▸ (List.prefix_append_right_inj _).1 h)
  · intro h
    cases h with
    | bare h => exact absurd (by simp [hv]) h
    | reference hd hf => exact absurd (hm.symm.trans hf) (by simp)
    | repeated a b ha hab h =>
      rw [Query.visible_of_eq ha hab]
      rcases Text.behind_mark_cases ha (hv.symm.trans hab) with rfl | ⟨r, rfl⟩
      · exact List.prefix_append _ rest
      · exact absurd (h.subset (by simp)) ha
    | completed a more ha hab h =>
      rw [Query.visible_of_eq ha hab, List.prefix_append_right_inj]
      rwa [hrest] at h

/-- A written word shows at its position what a rename replaces exactly if it is aligned. -/
theorem Written.visible_iff {file : String} {lines : List Line} {number : Nat}
    (h : Written file lines number line m) :
    (line.drop (writtenColumn m)).take (Query.visibleLength m.word) = Query.visible m.word ↔
      Aligned line m := by
  obtain ⟨_, seen, hseen⟩ := h.found
  obtain ⟨hw, hl⟩ := Match.layout_of_mem_onLine hseen
  rw [Query.take_eq_visible]
  cases hl with
  | kept front back hv hs hf => exact visible_iff_of_kept hw hv hs hf
  | completed qualifier hv hs hm => exact visible_iff_of_completed hw hv hs hm

end Index

/-- A position is recorded for the symbol under a key. -/
def SymbolTable.Records (t : SymbolTable) (key file : String) (p : Position) : Prop :=
  ∃ positions, (t.referencesOf key)[file]? = some positions ∧ p ∈ positions

/-- Recording a position of a symbol that keeps its references adds nothing else. -/
theorem SymbolTable.records_of_record {t u : SymbolTable} {key file k f : String} {s : Symbol}
    {p q : Position} {id : Option String} (hs : u.symbols = (t.record key file s p id).symbols)
    (hr : s.references = t.referencesOf key) (h : u.Records k f q) :
    t.Records k f q ∨ key = k ∧ file = f ∧ p = q := by
  obtain ⟨positions, hp, hq⟩ := h
  have hu : u.referencesOf k = (t.record key file s p id).referencesOf k := by
    simp only [referencesOf, hs]
  rw [hu, referencesOf_record] at hp
  split at hp
  · rename_i hk
    subst hk
    rw [getElem?_addPosition, hr] at hp
    split at hp
    · rename_i hf
      subst hf
      cases hp
      rcases Std.ExtTreeSet.mem_insert.1 hq with he | hq
      · exact .inr ⟨rfl, rfl, Std.LawfulEqOrd.eq_of_compare he⟩
      · cases ho : (t.referencesOf key)[file]? with
        | none => simp [ho] at hq
        | some old =>
          rw [ho] at hq
          exact .inl ⟨old, ho, hq⟩
    · exact .inl ⟨positions, hp, hq⟩
  · exact .inl ⟨positions, hp, hq⟩

namespace Index
variable {file key f : String} {lines : List Line} {number : Nat} {line : Line} {m : Match}
  {p : Position}

/-- A position, under a key and in a file, of a word that indexing the lines of a file writes. -/
def WrittenAt (file : String) (lines : List Line) (key f : String) (p : Position) : Prop :=
  ∃ number line m, Written file lines number line m ∧ Symbol.key? m.word m.role.category = some key ∧
    fileKey? file = some f ∧ p = ⟨number, writtenColumn m⟩

private theorem records_writeDeclaration {i j : Index} (hw : Written file lines number line m)
    (hd : m.role.declares = true) (h : i.writeDeclaration file lines number line m = .ok j)
    (hp : j.symbols.Records key f p) :
    i.symbols.Records key f p ∨ WrittenAt file lines key f p := by
  obtain ⟨r, hr, hj⟩ := writeDeclaration_cases h
  have hj : j.symbols = r.1 := by
    rcases hj with rfl | ⟨_, rfl⟩ <;> rfl
  rw [hj] at hp
  rcases SymbolTable.declare_cases hr with ⟨-, rfl⟩ | ⟨_, _, _, _, _, rfl⟩ |
    ⟨key', f', s, hkey, hf, _, _, he, -⟩
  · exact .inl hp
  · exact .inl hp
  · rw [he] at hp
    rcases SymbolTable.records_of_record (SymbolTable.symbols_recordDeclaration _ _ _ _ _) rfl hp
      with hp | ⟨rfl, rfl, rfl⟩
    · exact .inl hp
    · refine .inr ⟨number, line, m, hw, hkey, hf, ?_⟩
      simp [writtenColumn, hd, Location.at, Position.span]

private theorem records_writeReference {i : Index} (hw : Written file lines number line m)
    (hd : m.role.declares = false) (hp : (i.writeReference file number m).symbols.Records key f p) :
    i.symbols.Records key f p ∨ WrittenAt file lines key f p := by
  rw [writeReference_eq_refer] at hp
  dsimp only at hp
  rcases SymbolTable.refer_cases i.symbols m.word m.role file ⟨number, referenceColumn m.annotations⟩
    m.annotations.packId with he | ⟨key', f', s, hkey, hf, hs, he⟩
  · rw [he] at hp
    exact .inl hp
  · rw [he] at hp
    rcases SymbolTable.records_of_record rfl (SymbolTable.places_of_refer hs).1 hp
      with hp | ⟨rfl, rfl, rfl⟩
    · exact .inl hp
    · refine .inr ⟨number, line, m, hw, hkey, hf, ?_⟩
      simp [writtenColumn, hd]

/-- A position that indexing a file records is that of a word of its text. -/
theorem parse_records [KeyOrder] {i j : Index} {text : String} (h : i.parse file text = .ok j)
    (hp : j.symbols.Records key f p) :
    i.symbols.Records key f p ∨ WrittenAt file (Text.splitLines text.toList) key f p := by
  refine parse_keeps (P := fun k => k.symbols.Records key f p → i.symbols.Records key f p ∨
    WrittenAt file (Text.splitLines text.toList) key f p) ?_ ?_ ?_ .inl h hp
  · intro k number line hk hp
    rw [symbols_noteLine] at hp
    exact hk hp
  · intro k l number line m hw hd hk hl hp
    exact (records_writeDeclaration hw hd hl hp).elim hk .inr
  · intro k number line m hw hd hk hp
    exact (records_writeReference hw hd hp).elim hk .inr

/-- Every position that indexing a text records is that of a word of the text, and for every such word
the text from there on, for the length that a rename replaces, is what it replaces exactly if the word
is aligned. -/
theorem parse_shows_visible_iff_aligned [KeyOrder] (i : Index) (file text : String) :
    (∀ number line m, Written file (Text.splitLines text.toList) number line m →
      ((line.drop (writtenColumn m)).take (Query.visibleLength m.word) = Query.visible m.word ↔
        Aligned line m)) ∧
    ∀ j, i.parse file text = .ok j → ∀ key f p, j.symbols.Records key f p →
      i.symbols.Records key f p ∨ WrittenAt file (Text.splitLines text.toList) key f p :=
  ⟨fun _ _ _ h => h.visible_iff, fun _ h _ _ _ hp => parse_records h hp⟩

section
attribute [local instance] KeyOrder.ascending

/-- A call of a script with a qualified name is recorded behind the colon. -/
theorem qualified_call_shows_back :
    ∃ m, Written "a.rs2" (Text.splitLines "~a:b".toList) 0 "~a:b".toList m ∧ m.word = "a:b" ∧
      writtenColumn m = 3 ∧
      ("~a:b".toList.drop 3).take (Query.visibleLength m.word) = Query.visible m.word := by
  have hfound : (Match.onLine {} "~a:b".toList 0 "a.rs2")[0]?.bind (·.map fun m =>
      (m.annotations, m.role.declares, m.role.category.profile.cached)) =
        some ({ word := "a:b", start := 1 }, false, true) := by decide +kernel
  obtain ⟨o, ho, hfound⟩ := Option.bind_eq_some_iff.1 hfound
  obtain ⟨m, rfl, hm⟩ := Option.map_eq_some_iff.1 hfound
  simp only [Prod.mk.injEq] at hm
  obtain ⟨ha, hd, hc⟩ := hm
  have hw : Written "a.rs2" (Text.splitLines "~a:b".toList) 0 "~a:b".toList m :=
    ⟨by decide, ⟨_, {}, List.mem_of_getElem? ho⟩, hc⟩
  have hcol : writtenColumn m = 3 := by
    simp only [writtenColumn, hd, ha]
    decide
  refine ⟨m, hw, congrArg Annotations.word ha, hcol, ?_⟩
  rw [← hcol]
  exact ((parse_shows_visible_iff_aligned {} "a.rs2" "~a:b").1 0 _ m hw).2 (.reference hd (by rw [ha]))

/-- The header of a script with a qualified name is recorded before the colon, where a rename would
replace the qualifier. -/
theorem qualified_header_shows_front :
    ∃ j, ({} : Index).parse "a.rs2" "[proc,a:b]" = .ok j ∧
      j.symbols.Records "a:bPROC" "a.rs2" ⟨0, 6⟩ ∧
      ("[proc,a:b]".toList.drop 6).take (Query.visibleLength "a:b") ≠ Query.visible "a:b" := by
  have hparse : ((({} : Index).parse "a.rs2" "[proc,a:b]").toOption.bind fun j =>
      (j.symbols.referencesOf "a:bPROC")["a.rs2"]?).any (·.contains ⟨0, 6⟩) = true := by
    decide +kernel
  cases hj : ({} : Index).parse "a.rs2" "[proc,a:b]" with
  | error e => simp [hj, Except.toOption] at hparse
  | ok j =>
    rw [hj] at hparse
    obtain ⟨positions, hp, hc⟩ := (Option.any_eq_true _ _).1 hparse
    exact ⟨j, rfl, ⟨positions, hp, hc⟩, by decide⟩

end

end Index

end ScriptIndex
