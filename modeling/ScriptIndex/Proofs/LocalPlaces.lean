import ScriptIndex.Proofs.LocalNames
import ScriptIndex.Proofs.RecordedPlaces
import ScriptIndex.Proofs.VariableWords

/-! The places that are shown and renamed for a local variable. The name under the cursor is among them
exactly if its script reads it there and declares the variable nowhere behind it: a script does not record
a name before its declaration, and a second declaration starts the variable anew. -/
namespace ScriptIndex

private theorem Position.Before.trans {p q r : Position} (hpq : p.Before q) (hqr : q.Before r) :
    p.Before r := by
  unfold Before at hpq hqr ⊢
  omega

private theorem Position.before_or_eq_or_before (p q : Position) : p.Before q ∨ p = q ∨ q.Before p := by
  obtain ⟨pline, pcolumn⟩ := p
  obtain ⟨qline, qcolumn⟩ := q
  simp only [Before, mk.injEq]
  omega

def Location.Covers (k l : Location) : Prop :=
  k.file = l.file ∧ ¬ l.span.start.Before k.span.start ∧ ¬ k.span.stop.Before l.span.stop

/-- Of two stretches of one length, each on a line, only the same one covers the other. -/
private theorem Location.covers_at_iff {file : String} {line column line' column' length : Int} :
    (Location.at file line column length).Covers (.at file line' column' length) ↔
      line = line' ∧ column = column' := by
  simp only [Covers, Location.at, Position.span, Position.advance, Position.Before, true_and]
  omega

namespace ScriptBlock

/-- Where a script reads the name of a variable: where it declares it, and where a word of its code is the
name. -/
inductive ReadAt (lines : List Line) (cache : ScriptCache) (b : ScriptBlock) (name : String) :
    Position → Prop where
  | declared {p : Position} : DeclaredAt lines cache b name p → ReadAt lines cache b name p
  | word {number : Nat} {line : Line} {w : Word} :
      lines[number]? = some line → cache.at? number = some b → w ∈ b.wordsOn number line →
      w.value = name →
      ReadAt lines cache b name ⟨number, (w.start + b.codeColumn number line : Nat)⟩

/-- The places recorded for a variable start with its declaration. -/
private theorem Recorded.eq_or_before {file : String} {lines : List Line} {cache : ScriptCache}
    {b : ScriptBlock}
    {name : String} {v : Variable} (h : Recorded file lines cache b name v) {l : Location}
    (hl : l ∈ v.references) :
    l = v.declaration ∨ v.declaration.span.start.Before l.span.start := by
  obtain ⟨rest, hrest⟩ := List.head?_eq_some_iff.1 h.first
  have hordered := h.ordered
  rw [hrest] at hordered hl
  exact (List.mem_cons.1 hl).imp_right fun hl => (List.pairwise_cons.1 hordered).1 l hl

section
variable {file : String} {lines : List Line} {start : Nat} {first : Line} {cache : ScriptCache}
  (hfirst : lines[start]? = some first) (htrigger : LineShape.isTriggerLine first = true)
  (hcache : cache.blocks = ofLines file lines) {name : String}
include hfirst htrigger hcache

/-- An event on a name stands where the script reads it. -/
private theorem readAt_of_mem_events {e : Event} (he : e ∈ events file (sourceAt lines start first)) :
    ReadAt lines cache (ofSource file (sourceAt lines start first)) e.name e.position := by
  cases e with
  | declared name type isParameter location =>
    exact .declared ((declaredAt_iff hfirst htrigger hcache).2 ⟨type, isParameter, location, he, rfl⟩)
  | mentioned name location =>
    rcases List.mem_append.1 he with he | he
    · -- In a header, names are only declared.
      obtain ⟨_, _, _, _, _, _, -, -, -, heq⟩ := mem_headerEvents.1 he
      cases heq
    · obtain ⟨c, hc, he⟩ := List.mem_flatMap.1 he
      obtain ⟨number, line, hl, hat, rfl⟩ := (mem_code hfirst htrigger hcache).1 hc
      obtain ⟨w, hw, -, hn, hlocation⟩ := mem_wordEvents he
      have hposition : (Event.mentioned name location).position =
          ⟨number, (w.start + (ofSource file (sourceAt lines start first)).codeColumn number line : Nat)⟩ := by
        rw [Event.position, hlocation]
        rfl
      rw [hposition, hn]
      exact .word hl hat hw rfl

/-- The places recorded for a variable are where its script reads the name, from the latest declaration
on. -/
theorem mem_references_iff {v : Variable}
    (hv : (ofSource file (sourceAt lines start first)).named? name = some v)
    (hdollar : name.toList.head? = some '$') {p : Position} :
    (∃ l ∈ v.references, l.span.start = p) ↔
      ReadAt lines cache (ofSource file (sourceAt lines start first)) name p ∧
        ∀ q, DeclaredAt lines cache (ofSource file (sourceAt lines start first)) name q → ¬ p.Before q := by
  have hrecorded := recorded_of_named? hfirst htrigger hcache hv
  constructor
  · rintro ⟨l, hl, rfl⟩
    obtain ⟨_, _, hlatest⟩ := exists_latest hv
    obtain ⟨e, he, rfl, rfl⟩ := hlatest.exists_event hl
    refine ⟨readAt_of_mem_events hfirst htrigger hcache he, fun q hq hbefore => ?_⟩
    rcases hrecorded.eq_or_before hl with heq | hdeclared
    · exact hrecorded.latest q hq (heq ▸ hbefore)
    · exact hrecorded.latest q hq (hdeclared.trans hbefore)
  · rintro ⟨hread, hlast⟩
    rcases Position.before_or_eq_or_before v.declaration.span.start p with hbefore | heq | hbefore
    · cases hread with
      | declared hp => exact absurd hbefore (hrecorded.latest _ hp)
      | word hl hat hw hvalue => exact ⟨_, hrecorded.complete hdollar _ _ _ hl hat hw hvalue hbefore, rfl⟩
    · exact ⟨_, List.mem_of_mem_head? hrecorded.first, heq⟩
    · exact absurd hbefore (hlast _ hrecorded.declared)

end

/-- In the code on a line, a script reads a name exactly where a word is the name. -/
private theorem readAt_code_iff {lines : List Line} {cache : ScriptCache} {b : ScriptBlock} {name : String}
    {number : Nat} {line : Line} (hl : lines[number]? = some line) (hat : cache.at? number = some b)
    {column : Nat} (hcolumn : b.codeColumn number line ≤ column) :
    ReadAt lines cache b name ⟨number, column⟩ ↔
      ∃ w ∈ b.wordsOn number line, w.value = name ∧ w.start + b.codeColumn number line = column := by
  constructor
  · intro h
    generalize hp : (⟨number, column⟩ : Position) = p at h
    cases h with
    | declared h =>
      cases h with
      | parameter hl' hgroup hsplit hparse hname hfind =>
        -- A parameter stands in the header, before the code.
        obtain ⟨hnumber, hcursor⟩ := Position.mk.inj hp
        obtain rfl : number = b.start := by omega
        cases hl.symm.trans hl'
        subst hname
        obtain ⟨place, hplace, hshown⟩ := @headerEvents_shown "" b.start _ _
          (mem_headerEvents.2 ⟨_, _, _, _, _, _, hgroup, hsplit, hparse, rfl⟩)
        have hlocation := congrArg (fun l : Location => l.span.start.column) hshown.location
        simp only [Event.location, parameterAt, hfind, Option.getD_some, Location.at,
          Position.span] at hlocation
        rw [codeColumn, if_pos rfl] at hcolumn
        rw [List.length_take] at hplace
        omega
      | @word number' line' u w type hl' hat' hi htype hvariable hvalue =>
        obtain ⟨hnumber, hcursor⟩ := Position.mk.inj hp
        obtain rfl : number = number' := by omega
        cases hl.symm.trans hl'
        exact ⟨w, hi.subset (by simp), hvalue, by omega⟩
    | @word number' line' w hl' hat' hw hvalue =>
      obtain ⟨hnumber, hcursor⟩ := Position.mk.inj hp
      obtain rfl : number = number' := by omega
      cases hl.symm.trans hl'
      exact ⟨w, hw, hvalue, by omega⟩
  · rintro ⟨w, hw, hvalue, rfl⟩
    exact .word hl hat hw hvalue

end ScriptBlock

namespace Word

/-- A word that is a single name, with a `$` before it. -/
private theorem drop_of_charBefore? {line : Line} {number : Int} {file : String} {w : Word} {cursor : Nat}
    (hw : w ∈ ofLine (LineShape.withoutComment line))
    (hdollar : WordContext.charBefore? ⟨.ofLine line number file, w, cursor⟩ = some '$')
    (hname : ∀ c ∈ w.value.toList, Text.isWordChar c = true) :
    0 < w.start ∧ ∃ after,
      (LineShape.withoutComment line).drop (w.start - 1) = '$' :: (w.value.toList ++ after) ∧
      ∀ c ∈ after.head?, Text.isWordChar c = false := by
  obtain ⟨d, -, hstart, -, hvalue⟩ := mem_scan hw
  rw [Nat.zero_add] at hstart
  subst hstart
  unfold WordContext.charBefore? at hdollar
  split at hdollar
  · cases hdollar
  · rename_i hpositive
    refine ⟨Nat.pos_of_ne_zero hpositive, _, ?_, head?_drop_lengthAt (hvalue ▸ hname)⟩
    have hdollar : (LineShape.withoutComment line)[w.start - 1]? = some '$' := hdollar
    obtain ⟨hlt, hget⟩ := List.getElem?_eq_some_iff.1 hdollar
    rw [List.drop_eq_getElem_cons hlt, hget, Nat.sub_add_cancel (Nat.pos_of_ne_zero hpositive), hvalue,
      List.take_append_drop]

end Word

namespace ScriptBlock

private theorem drop_codeColumn {b : ScriptBlock} {number : Nat} {line : Line}
    (h : number = b.start → LineShape.isTriggerLine line = true) :
    (LineShape.withoutComment line).drop (b.codeColumn number line) =
      LineShape.withoutComment (line.drop (b.codeColumn number line)) := by
  unfold codeColumn
  split
  · rename_i hstart
    exact LineShape.drop_withoutComment_header (h hstart)
  · rfl

/-- A name of the code with a `$` before it is read exactly if the run before the `$` is made of names,
each behind its own `$`. -/
theorem readAt_name_iff {lines : List Line} {cache : ScriptCache} {b : ScriptBlock} {number : Nat}
    {line : Line} (hl : lines[number]? = some line) (hat : cache.at? number = some b)
    (htrigger : number = b.start → LineShape.isTriggerLine line = true) {file : String} {w : Word}
    {cursor : Nat} (hw : w ∈ Word.ofLine (LineShape.withoutComment line))
    (hdollar : WordContext.charBefore? ⟨.ofLine line number file, w, cursor⟩ = some '$')
    (hname : ∀ c ∈ w.value.toList, Text.isWordChar c = true)
    (hcode : b.codeColumn number line < w.start) :
    ReadAt lines cache b ("$" ++ w.value) ⟨number, (w.start - 1 : Nat)⟩ ↔
      Word.Variables (Word.trailingRun
        ((LineShape.withoutComment (line.drop (b.codeColumn number line))).take
          (w.start - 1 - b.codeColumn number line))) := by
  obtain ⟨hpositive, after, hdrop, hafter⟩ := Word.drop_of_charBefore? hw hdollar hname
  have hne : w.value.toList ≠ [] := (Word.form_of_mem hw).ne_nil
  have hcodeDrop : (LineShape.withoutComment (line.drop (b.codeColumn number line))).drop
      (w.start - 1 - b.codeColumn number line) = '$' :: (w.value.toList ++ after) := by
    rw [← drop_codeColumn htrigger, List.drop_drop, Nat.add_sub_cancel' (by omega), hdrop]
  rw [readAt_code_iff hl hat (by omega), ← Word.exists_variable_iff hne hname hafter hcodeDrop]
  refine exists_congr fun u => and_congr_right fun _ => ?_
  rw [and_comm, ← String.toList_inj, String.toList_append]
  exact and_congr_left' (by omega)

end ScriptBlock

namespace Match

/-- A local variable is named by the word as it is written. -/
private theorem word_of_localVar [KeyOrder] {ctx : WordContext} {index : Index} {m : Match}
    (h : ofContext? ctx index = some m) (hlocal : m.role.category = .localVar) :
    m.word = ctx.word.value := by
  obtain ⟨-, role, annotations, -, hannotations, rfl⟩ := Index.ofContext?_eq_some.1 h
  have hlocal : role.category = .localVar := hlocal
  rw [hlocal] at hannotations
  cases hannotations
  rfl

end Match

namespace ScriptCache

theorem mem_of_at? {s : ScriptCache} {line : Int} {b : ScriptBlock} (h : s.at? line = some b) :
    b ∈ s.blocks :=
  List.mem_of_mem_filter (List.mem_of_getLast? h)

private theorem blocks_ofText {file : String} (h : hasEnding ".rs2" file = true) (text : String) :
    (ofText (some file) (some text)).blocks =
      ScriptBlock.ofLines file (Text.splitLines text.toList) :=
  if_pos h

section
variable {file text : String} (hfile : hasEnding ".rs2" file = true) {b : ScriptBlock}
  (hb : b ∈ (ofText (some file) (some text)).blocks)
include hfile hb

private theorem exists_source : ∃ start first, (Text.splitLines text.toList)[start]? = some first ∧
    LineShape.isTriggerLine first = true ∧
    b = .ofSource file (ScriptBlock.sourceAt (Text.splitLines text.toList) start first) := by
  rwa [blocks_ofText hfile, ScriptBlock.mem_ofLines] at hb

private theorem isTriggerLine_of_mem {line : Line}
    (hl : (Text.splitLines text.toList)[b.start]? = some line) :
    LineShape.isTriggerLine line = true := by
  obtain ⟨start, first, hfirst, htrigger, rfl⟩ := exists_source hfile hb
  cases hfirst.symm.trans hl
  exact htrigger

theorem recorded_of_mem {name : String} {v : Variable} (hv : b.named? name = some v) :
    ScriptBlock.Recorded file (Text.splitLines text.toList) (ofText (some file) (some text)) b name v := by
  obtain ⟨start, first, hfirst, htrigger, rfl⟩ := exists_source hfile hb
  exact ScriptBlock.recorded_of_named? hfirst htrigger (blocks_ofText hfile text) hv

/-- A place is covered by a recorded one exactly if the name is read there and declared nowhere behind
it. -/
theorem exists_covers_iff {name : String} {v : Variable} (hv : b.named? name = some v)
    (hdollar : name.toList.head? = some '$') (line column : Int) :
    (∃ l ∈ v.references, l.Covers (.at file line column name.length)) ↔
      ScriptBlock.ReadAt (Text.splitLines text.toList) (ofText (some file) (some text)) b name
          ⟨line, column⟩ ∧
        ∀ p, ScriptBlock.DeclaredAt (Text.splitLines text.toList) (ofText (some file) (some text)) b name
          p → ¬ Position.Before ⟨line, column⟩ p := by
  have hstart : (∃ l ∈ v.references, l.Covers (.at file line column name.length)) ↔
      ∃ l ∈ v.references, l.span.start = ⟨line, column⟩ := by
    refine exists_congr fun l => and_congr_right fun hl => ?_
    obtain ⟨_, _, _, rfl, -⟩ := (recorded_of_mem hfile hb hv).shown l hl
    rw [Location.covers_at_iff, ← Position.mk.injEq]
    rfl
  obtain ⟨start, first, hfirst, htrigger, rfl⟩ := exists_source hfile hb
  rw [hstart, ScriptBlock.mem_references_iff hfirst htrigger (blocks_ofText hfile text) hv hdollar]

end

end ScriptCache

namespace Query

private theorem localAt?_eq {index : Index} {line : Int} {b : ScriptBlock} {name : String} {v : Variable}
    (hb : index.scripts.at? line = some b) (hv : b.named? ("$" ++ name) = some v) :
    localAt? index line name = some v := by
  rw [localAt?, hb]
  exact hv

section
variable [KeyOrder] {index : Index} {file text : String} {line column : Int} {m : Match}
  (hm : matchAt? index text line file column = some m) (hlocal : m.role.category = .localVar)
include hm hlocal

theorem references_eq_localAt? : references index text line file column =
    ((localAt? index line m.word).map Variable.references).getD [] := by
  rw [references, hm]
  show (if (m.role.category.profile.inert || m.role.category.profile.displayOnly) = true then _ else _) = _
  rw [hlocal, if_neg (by decide), if_pos rfl]

theorem rename_eq_references (root : Option Path) (d : Disk) (newName : String) :
    rename index root d text line file column newName =
      .ok { edits := (references index text line file column).map fun l => ⟨l, "$" ++ newName⟩ } := by
  have hrenameable : renameable index text line file column = .ok m := by
    rw [renameable, hm]
    dsimp only
    rw [hlocal, if_neg (by decide), if_neg (by simp)]
  rw [rename, hrenameable, references_eq_localAt? hm hlocal]
  show (if m.role.category = .localVar then _ else _) = _
  rw [if_pos hlocal]
  rfl

theorem definition?_eq_localAt? : definition? index text line file column =
    if m.role.declares then some (.at file line column 0)
    else (localAt? index line m.word).map Variable.declaration := by
  rw [definition?, hm]
  show (if (m.role.category.profile.inert || m.role.category.profile.displayOnly) = true then _
    else if (m.role.declares || m.role.category.profile.referenceOnly) = true then _ else _) = _
  rw [hlocal, if_neg (by decide), if_pos rfl]
  cases m.role.declares <;> rfl

variable {b : ScriptBlock} {v : Variable} (hb : index.scripts.at? line = some b)
  (hv : b.named? ("$" ++ m.word) = some v)
include hb hv

private theorem references_localVar : references index text line file column = v.references := by
  rw [references_eq_localAt? hm hlocal, localAt?_eq hb hv]
  rfl

private theorem rename_localVar (root : Option Path) (d : Disk) (newName : String) :
    rename index root d text line file column newName =
      .ok { edits := v.references.map fun l => ⟨l, "$" ++ newName⟩ } := by
  rw [rename_eq_references hm hlocal, references_localVar hm hlocal hb hv]

end

/-- What is shown for a local variable and what a rename of it changes are the same places, and the name
under the cursor is covered by one of them exactly if the script reads it there and declares the variable
nowhere behind it. Behind the header, it is read exactly if the run of characters before its `$` is made of
names, each behind its own `$`. -/
theorem references_rename_localVar [KeyOrder] {index : Index} {file text : String} {line column : Int}
    {m : Match}
    {b : ScriptBlock} {v : Variable} (hfile : ScriptCache.hasEnding ".rs2" file = true)
    (hscripts : index.scripts = .ofText (some file) (some text))
    (hm : matchAt? index text line file column = some m) (hlocal : m.role.category = .localVar)
    (hb : index.scripts.at? line = some b) (hv : b.named? ("$" ++ m.word) = some v) :
    let lines := Text.splitLines text.toList
    let name := "$" ++ m.word
    let w := m.context.word
    let token := Location.at file line (w.start - 1) name.length
    (∀ root d newName, rename index root d text line file column newName =
      .ok { edits := (references index text line file column).map fun l => ⟨l, "$" ++ newName⟩ }) ∧
    ((∃ l ∈ references index text line file column, l.Covers token) ↔
      ScriptBlock.ReadAt lines index.scripts b name token.span.start ∧
        ∀ p, ScriptBlock.DeclaredAt lines index.scripts b name p → ¬ token.span.start.Before p) ∧
    ∃ (number : Nat) (shown : Line), line = number ∧ lines[number]? = some shown ∧
      w ∈ Word.ofLine (LineShape.withoutComment shown) ∧ w.covers column = true ∧ w.value = m.word ∧
      ((∀ c ∈ m.word.toList, Text.isWordChar c = true) → m.context.charBefore? = some '$' →
        b.codeColumn number shown < w.start →
        (ScriptBlock.ReadAt lines index.scripts b name token.span.start ↔
          Word.Variables (Word.trailingRun
            ((LineShape.withoutComment (shown.drop (b.codeColumn number shown))).take
              (w.start - 1 - b.codeColumn number shown))))) := by
  intro lines name w token
  obtain ⟨number, cursor, shown, w', rfl, rfl, -, hshown, hw, hcovers, hcontext, hclassified⟩ :=
    matchAt?_eq_some hm
  obtain rfl : w = w' := congrArg WordContext.word hcontext
  have hword : m.word = w.value := Match.word_of_localVar hclassified hlocal
  have hdollar : name.toList.head? = some '$' := by simp [name]
  rw [references_localVar hm hlocal hb hv]
  refine ⟨rename_localVar hm hlocal hb hv, ?_, number, shown, rfl, hshown, hw, hcovers, hword.symm, ?_⟩
  · rw [hscripts] at hb ⊢
    exact ScriptCache.exists_covers_iff hfile (ScriptCache.mem_of_at? hb) hv hdollar number (w.start - 1)
  · intro hname hbefore hcode
    rw [hscripts] at hb ⊢
    have hposition : token.span.start = ⟨number, (w.start - 1 : Nat)⟩ :=
      congrArg (Position.mk number) (by omega)
    have hname' : name = "$" ++ w.value := congrArg ("$" ++ ·) hword
    have htrigger (hstart : number = b.start) : LineShape.isTriggerLine shown = true :=
      ScriptCache.isTriggerLine_of_mem hfile (ScriptCache.mem_of_at? hb) (hstart ▸ hshown)
    rw [hcontext] at hbefore
    rw [hposition, hname']
    exact ScriptBlock.readAt_name_iff hshown hb htrigger hw hbefore (hword ▸ hname) hcode

section
attribute [local instance] KeyOrder.ascending

/-- A parameter, found in a row of two names behind another declaration. -/
theorem parameter_in_row_covered :
    let text := "[proc,f](int $x)\ndef_int $y = calc($x$x);"
    let index : Index := { scripts := .ofText (some "a.rs2") (some text) }
    ScriptCache.hasEnding ".rs2" "a.rs2" = true ∧
      (∃ m b v, matchAt? index text 1 "a.rs2" 21 = some m ∧ m.role.category = .localVar ∧
        index.scripts.at? 1 = some b ∧ b.named? ("$" ++ m.word) = some v) ∧
      ∃ l ∈ references index text 1 "a.rs2" 21, l.Covers (.at "a.rs2" 1 20 2) := by
  intro text index
  have hfile : ScriptCache.hasEnding ".rs2" "a.rs2" = true := by decide
  have hfound : (matchAt? index text 1 "a.rs2" 21).map (fun m =>
      (m.role.category, m.word, m.context.word, m.context.charBefore?)) =
        some (.localVar, "x", ⟨"x", 21, 4⟩, some '$') := by decide +kernel
  obtain ⟨m, hm, hread⟩ := Option.map_eq_some_iff.1 hfound
  simp only [Prod.mk.injEq] at hread
  obtain ⟨hlocal, hword, hw, hdollar⟩ := hread
  obtain ⟨b, hb, hv⟩ := Option.bind_eq_some_iff.1
    (show (index.scripts.at? 1).bind (·.named? "$x") = some ⟨"int", true, .at "a.rs2" 0 13 2,
      [.at "a.rs2" 0 13 2, .at "a.rs2" 1 18 2, .at "a.rs2" 1 20 2]⟩ by decide +kernel)
  have hname := (congrArg (fun name => b.named? ("$" ++ name)) hword).trans hv
  refine ⟨hfile, ⟨m, b, _, hm, hlocal, hb, hname⟩, ?_⟩
  obtain ⟨-, hcovered, number, shown, hnumber, hshown, -, -, -, hcode⟩ :=
    references_rename_localVar hfile rfl hm hlocal hb hname
  obtain rfl : number = 1 := by omega
  have hsecond : (Text.splitLines text.toList)[1]? = some "def_int $y = calc($x$x);".toList := by decide
  cases hsecond.symm.trans hshown
  have hstart : b.start = 0 := by
    have hs : (index.scripts.at? 1).map ScriptBlock.start = some 0 := by decide +kernel
    rw [hb] at hs
    exact Option.some.inj hs
  have hcolumn : b.codeColumn 1 "def_int $y = calc($x$x);".toList = 0 := by
    rw [ScriptBlock.codeColumn, if_neg (by omega)]
  rw [hw, hword] at hcovered
  rw [hcolumn, hw, hword] at hcode
  have hname' : ∀ c ∈ "x".toList, Text.isWordChar c = true := List.forall_mem_singleton.2 (by decide)
  have hrun : Word.Variables ('$' :: ("x".toList ++ [])) := .cons (by simp) hname' .nil
  have hread := (hcode hname' hdollar (by decide)).2 hrun
  refine hcovered.2 ⟨hread, fun p hp hbefore => ?_⟩
  -- The declaration in the header is the latest, and stands before the row.
  have hrecorded := ScriptCache.recorded_of_mem hfile (ScriptCache.mem_of_at? hb) hv
  exact hrecorded.latest p hp (Position.Before.trans (.inl (by decide)) hbefore)

/-- A name that stands before its declaration is not among the places of the variable. -/
theorem mention_before_declaration_missed :
    let text := "[proc,f]\n$x = 1;\ndef_int $x = 2;"
    let index : Index := { scripts := .ofText (some "a.rs2") (some text) }
    ScriptCache.hasEnding ".rs2" "a.rs2" = true ∧
      (∃ m b v, matchAt? index text 1 "a.rs2" 1 = some m ∧ m.role.category = .localVar ∧
        m.context.word = ⟨"x", 1, 0⟩ ∧ index.scripts.at? 1 = some b ∧
        b.named? ("$" ++ m.word) = some v) ∧
      (¬ ∃ l ∈ references index text 1 "a.rs2" 1, l.Covers (.at "a.rs2" 1 0 2)) ∧
      ∃ plan, rename index none {} text 1 "a.rs2" 1 "y" = .ok plan ∧
        ¬ ∃ e ∈ plan.edits, e.location.Covers (.at "a.rs2" 1 0 2) := by
  intro text index
  have hfound : (matchAt? index text 1 "a.rs2" 1).map (fun m =>
      (m.role.category, m.word, m.context.word)) = some (.localVar, "x", ⟨"x", 1, 0⟩) := by
    decide +kernel
  obtain ⟨m, hm, hread⟩ := Option.map_eq_some_iff.1 hfound
  simp only [Prod.mk.injEq] at hread
  obtain ⟨hlocal, hword, hw⟩ := hread
  obtain ⟨b, hb, hv⟩ := Option.bind_eq_some_iff.1
    (show (index.scripts.at? 1).bind (·.named? "$x") = some ⟨"int", false, .at "a.rs2" 2 8 2,
      [.at "a.rs2" 2 8 2]⟩ by decide +kernel)
  have hname := (congrArg (fun name => b.named? ("$" ++ name)) hword).trans hv
  have hmissed : ¬ (Location.at "a.rs2" 2 8 2).Covers (.at "a.rs2" 1 0 2) := by
    rw [Location.covers_at_iff]
    omega
  refine ⟨by decide, ⟨m, b, _, hm, hlocal, hw, hb, hname⟩, ?_, _,
    rename_localVar hm hlocal hb hname none {} "y", ?_⟩
  · rw [references_localVar hm hlocal hb hname]
    simpa using hmissed
  · simpa using hmissed

end

end Query

end ScriptIndex
