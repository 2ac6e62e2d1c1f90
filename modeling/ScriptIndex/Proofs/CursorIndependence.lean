import ScriptIndex.Match
import ScriptIndex.Proofs.Pieces
import ScriptIndex.Proofs.Words

namespace ScriptIndex

namespace ConfigLine

def commas (escaped : Bool) : List Char → Nat
  | [] => 0
  | c :: rest => (if c = ',' ∧ !escaped then 1 else 0) + commas (c == '\\') rest

private theorem fieldsFrom_ne_nil (escaped : Bool) (text : List Char) :
    fieldsFrom escaped text ≠ [] := by
  cases text with
  | nil => simp [fieldsFrom]
  | cons c rest =>
    unfold fieldsFrom
    split
    · simp
    · split <;> simp

private theorem placeFrom?_cons (start column : Int) (c : Char) (field : List Char)
    (fields : List (List Char)) :
    placeFrom? start column ((c :: field) :: fields) =
      placeFrom? (start + 1) column (field :: fields) := by
  unfold placeFrom?
  have he : start + ((c :: field).length : Int) + 1 = start + 1 + (field.length : Int) + 1 := by
    simp only [List.length_cons]
    omega
  rw [he]

/-- The place of a field is the number of commas before the column, up to the end of the line. -/
theorem placeFrom?_fieldsFrom (start column : Int) (escaped : Bool) (text : List Char) :
    placeFrom? start column (fieldsFrom escaped text) =
      if column ≤ start + text.length then some (commas escaped (text.take (column - start).toNat))
      else none := by
  induction text generalizing start escaped with
  | nil =>
    simp only [fieldsFrom, placeFrom?, List.length_nil, List.take_nil, commas, Option.map_none]
    split <;> split <;> first | rfl | omega
  | cons c rest ih =>
    have htake (h : start < column) : (c :: rest).take (column - start).toNat =
        c :: rest.take (column - (start + 1)).toNat := by
      rw [show (column - start).toNat = (column - (start + 1)).toNat + 1 by omega,
        List.take_succ_cons]
    have htake' (h : ¬ start < column) : (c :: rest).take (column - start).toNat = [] := by
      rw [show (column - start).toNat = 0 by omega, List.take_zero]
    have hend : column ≤ start + 1 + rest.length ↔ column ≤ start + (c :: rest).length := by
      simp only [List.length_cons]
      omega
    unfold fieldsFrom
    split
    · rename_i hc
      rw [placeFrom?]
      simp only [List.length_nil, Int.natCast_zero, Int.add_zero]
      rw [ih]
      by_cases h : start < column
      · have hcomma : commas escaped (c :: rest.take (column - (start + 1)).toNat) =
            commas false (rest.take (column - (start + 1)).toNat) + 1 := by
          rw [commas, if_pos hc, Nat.add_comm, hc.1]
          rfl
        rw [if_neg (by omega), htake h, hcomma]
        simp only [hend]
        split <;> rfl
      · rw [if_pos (by omega), htake' h, if_pos (by simp only [List.length_cons]; omega)]
        rfl
    · rename_i hc
      split
      · rename_i field fields hf
        rw [placeFrom?_cons, ← hf, ih]
        simp only [hend]
        by_cases h : start < column
        · rw [htake h, commas, if_neg hc, Nat.zero_add]
        · rw [htake' h, show (column - (start + 1)).toNat = 0 by omega, List.take_zero]
          rfl
      · rename_i hf
        exact (fieldsFrom_ne_nil _ _ hf).elim

private theorem place?_eq (line : Line) (column : Nat) :
    place? line column = if column ≤ line.length then some (commas false (line.take column)) else none := by
  have h := placeFrom?_fieldsFrom 0 column false line
  simpa [place?, fields] using h

private theorem commas_append_inert {u : List Char} (hu : ∀ c ∈ u, c ∉ Word.reactive)
    (escaped : Bool) (before : List Char) :
    commas escaped (before ++ u) = commas escaped before := by
  induction before generalizing escaped with
  | nil =>
    induction u generalizing escaped with
    | nil => rfl
    | cons c u ih =>
      have hc : c ≠ ',' := fun he => hu c List.mem_cons_self (by rw [he]; decide)
      have hr := ih (fun c h => hu c (List.mem_cons_of_mem _ h)) (c == '\\')
      simp only [List.nil_append, commas, hc, false_and, if_false] at hr ⊢
      rw [hr]
  | cons c before ih => simp only [List.cons_append, commas, ih]

/-- Moving the cursor over characters that nothing reacts to leaves it in the same field. -/
private theorem place?_append_inert {before u after : List Char} (hu : ∀ c ∈ u, c ∉ Word.reactive) :
    place? (before ++ u ++ after) (before.length + u.length : Nat) =
      place? (before ++ u ++ after) before.length := by
  have hlong : (before ++ u ++ after).take (before.length + u.length) = before ++ u := by
    rw [← List.length_append, List.take_left]
  have hshort : (before ++ u ++ after).take before.length = before := by
    rw [List.append_assoc, List.take_left]
  rw [place?_eq, place?_eq, hlong, hshort, commas_append_inert hu]
  simp only [List.length_append]
  rw [if_pos (by omega), if_pos (by omega)]

end ConfigLine

namespace CallSite

private theorem quotesOdd_inert {u : List Char} (hu : ∀ c ∈ u, c ∉ Word.reactive)
    (previous : Option Char) (depth : Nat) (odd : Bool) (rest : List Char) :
    quotesOdd previous depth odd (u ++ rest) = quotesOdd (u.getLast?.or previous) depth odd rest := by
  induction u generalizing previous with
  | nil => rfl
  | cons c u ih =>
    have hc : c ≠ '"' ∧ c ≠ '>' ∧ c ≠ '<' := by
      refine ⟨?_, ?_, ?_⟩ <;> exact fun he => hu c List.mem_cons_self (by rw [he]; decide)
    have hr := ih (fun c h => hu c (List.mem_cons_of_mem _ h)) (some c)
    simp only [List.cons_append, quotesOdd, hc.1, hc.2.1, hc.2.2, false_and, if_false]
    rw [hr]
    cases u with
    | nil => rfl
    | cons d u => simp [List.getLast?_cons]

private theorem back_inert {u : List Char} (hu : ∀ c ∈ u, c ∉ Word.reactive) (s : State)
    (rest : List Char) : back s (u ++ rest) = back s rest := by
  induction u with
  | nil => rfl
  | cons c u ih =>
    have hc : c ≠ '"' ∧ c ≠ '>' ∧ c ≠ '<' ∧ c ≠ '(' ∧ c ≠ ')' ∧ c ≠ ',' := by
      refine ⟨?_, ?_, ?_, ?_, ?_, ?_⟩ <;>
        exact fun he => hu c List.mem_cons_self (by rw [he]; decide)
    obtain ⟨h1, h2, h3, h4, h5, h6⟩ := hc
    have hr := ih fun c h => hu c (List.mem_cons_of_mem _ h)
    simp only [List.cons_append, back, h1, h2, h3, h4, h5, h6, false_and, if_false, hr, ite_self]

/-- The search from a cursor in terms of what stands before it and what stands behind it. -/
theorem opening?_append (before after : List Char) :
    opening? (before ++ after) before.length =
      back { inText := quotesOdd before.getLast? 0 false after } before.reverse := by
  have hlast : (if before.length = 0 then none else (before ++ after)[before.length - 1]?) =
      before.getLast? := by
    cases before with
    | nil => rfl
    | cons c before =>
      rw [if_neg (by simp), List.getElem?_append_left (by simp), List.getLast?_eq_getElem?]
  rw [opening?, hlast, List.take_left, List.drop_left]

/-- Moving the cursor over characters that nothing reacts to leaves it in the same call. -/
private theorem opening?_append_inert {before u after : List Char} (hu : ∀ c ∈ u, c ∉ Word.reactive) :
    opening? (before ++ u ++ after) (before.length + u.length) =
      opening? (before ++ u ++ after) before.length := by
  have hr : ∀ c ∈ u.reverse, c ∉ Word.reactive := fun c hc => hu c (List.mem_reverse.1 hc)
  calc
    _ = back { inText := quotesOdd (before ++ u).getLast? 0 false after } (before ++ u).reverse := by
      rw [← List.length_append, opening?_append]
    _ = back { inText := quotesOdd before.getLast? 0 false (u ++ after) } before.reverse := by
      rw [List.reverse_append, back_inert hr, List.getLast?_append, quotesOdd_inert hu]
    _ = _ := by rw [List.append_assoc, opening?_append]

end CallSite

/-- Two contexts that see the same word of the same line, with the cursor on different columns of it. -/
structure SameWord (a b : WordContext) : Prop where
  line : a.line = b.line
  word : a.word = b.word
  place : ConfigLine.place? a.line.text a.cursor = ConfigLine.place? b.line.text b.cursor
  colon : (Text.find? " :".toList a.line.text).any (a.cursor < ·) =
    (Text.find? " :".toList b.line.text).any (b.cursor < ·)
  call : CallSite.opening? a.line.text a.cursor = CallSite.opening? b.line.text b.cursor

/-- All columns of a word of a line see the same. -/
theorem sameWord_of_mem {l : LineContext} {w : Word} {column : Nat} (hl : l.words = Word.ofLine l.text)
    (hw : w ∈ l.words) (hs : w.start ≤ column) (he : column ≤ w.last) :
    SameWord ⟨l, w, column⟩ ⟨l, w, w.start⟩ := by
  rw [hl] at hw
  obtain ⟨before, after, ht, hb⟩ := Word.split_of_mem hw
  have hpos := Word.length_pos_of_mem hw
  have hlen : column < w.start + w.value.length := by
    unfold Word.last at he
    omega
  -- The word splits at the cursor.
  obtain ⟨u, v, hval, hcol⟩ : ∃ u v, w.value.toList = u ++ v ∧ column = before.length + u.length := by
    refine ⟨w.value.toList.take (column - w.start), _, (List.take_append_drop _ _).symm, ?_⟩
    rw [List.length_take, String.length_toList]
    omega
  have hu : ∀ c ∈ u, c ∉ Word.reactive :=
    fun c hc => (Word.form_of_mem hw).not_reactive (hval ▸ List.mem_append_left v hc)
  have htext : l.text = before ++ u ++ (v ++ after) := by
    rw [ht, hval]
    simp only [List.append_assoc]
  refine ⟨rfl, rfl, ?_, ?_, ?_⟩
  · show ConfigLine.place? l.text column = ConfigLine.place? l.text w.start
    rw [htext, hcol, ← hb]
    exact ConfigLine.place?_append_inert hu
  · show (Text.find? " :".toList l.text).any (column < ·) =
      (Text.find? " :".toList l.text).any (w.start < ·)
    cases hn : Text.find? " :".toList l.text with
    | none => rfl
    | some n =>
      have hblank : l.text[n]? = some ' ' := Text.getElem?_of_find? hn
      have hout : ¬ (w.start < n ∧ n ≤ column) := by
        rintro ⟨hlo, hhi⟩
        rw [ht, List.append_assoc, List.getElem?_append_right (by omega),
          List.getElem?_append_left (by rw [String.length_toList]; omega)] at hblank
        exact (Word.form_of_mem hw).not_reactive (List.mem_of_getElem? hblank) (by decide)
      simp only [Option.any_some, decide_eq_decide]
      omega
  · show CallSite.opening? l.text column = CallSite.opening? l.text w.start
    rw [htext, hcol, ← hb]
    exact CallSite.opening?_append_inert hu

namespace Rules
variable {a b : WordContext} (h : SameWord a b) (index : Index)
include h

private theorem valLine_sameWord [KeyOrder] : valLine a index = valLine b index := by
  unfold valLine
  rw [h.place, h.line]

private theorem dataLine_sameWord [KeyOrder] : dataLine a index = dataLine b index := by
  unfold dataLine columnName
  rw [h.place, h.line, h.word]

private theorem paramLine_sameWord : paramLine a index = paramLine b index := by
  unfold paramLine
  rw [h.line, h.word]

private theorem config_sameWord [KeyOrder] : config a index = config b index := by
  unfold config configLine WordContext.dialect
  rw [valLine_sameWord h, dataLine_sameWord h, paramLine_sameWord h, h.place, h.line, h.word]

private theorem switchCase_sameWord : switchCase a index = switchCase b index := by
  unfold switchCase WordContext.dialect
  rw [h.colon, h.line, h.word]

private theorem parameters_sameWord : parameters a index = parameters b index := by
  unfold parameters argument returnRole CallSite.find? WordContext.dialect
  rw [h.call, h.line]

end Rules

/-- Every rule says the same wherever the cursor stands on the word. -/
theorem Rule.ask_sameWord [KeyOrder] {a b : WordContext} (h : SameWord a b) (index : Index) :
    ∀ rule ∈ Rule.all, rule.ask a index = rule.ask b index := by
  have hconfig := Rules.config_sameWord h index
  have hcase := Rules.switchCase_sameWord h index
  have hcall := Rules.parameters_sameWord h index
  obtain ⟨l, w, c⟩ := a
  obtain ⟨l', w', c'⟩ := b
  obtain rfl : l = l' := h.line
  obtain rfl : w = w' := h.word
  simp only [Rule.all, List.forall_mem_cons]
  -- The other rules do not read the cursor.
  exact ⟨rfl, rfl, rfl, rfl, rfl, rfl, hconfig, rfl, hcase, hcall, nofun⟩

private theorem Rule.classify_sameWord [KeyOrder] {a b : WordContext} (h : SameWord a b) (index : Index) :
    Rule.classify a index = Rule.classify b index := by
  have hall := Rule.ask_sameWord h index
  unfold Rule.classify
  generalize Rule.all = rules at hall
  induction rules with
  | nil => rfl
  | cons rule rules ih =>
    obtain ⟨hr, hrest⟩ := List.forall_mem_cons.1 hall
    rw [List.findSome?_cons, List.findSome?_cons, hr, ih hrest]

namespace Match

def withCursor (cursor : Nat) (m : Match) : Match :=
  { m with context := { m.context with cursor := cursor } }

private theorem ofContext?_sameWord [KeyOrder] {a b : WordContext} (h : SameWord a b) (index : Index) :
    ofContext? b index = (ofContext? a index).map (withCursor b.cursor) := by
  have hc := Rule.classify_sameWord h index
  obtain ⟨l, w, c⟩ := a
  obtain ⟨l', w', c'⟩ := b
  obtain rfl : l = l' := h.line
  obtain rfl : w = w' := h.word
  unfold ofContext?
  rw [hc]
  split
  · rfl
  · cases Rule.classify ⟨l, w, c'⟩ index with
    | none => rfl
    | some role =>
      have ha : Annotations.of? role.category ⟨l, w, c⟩ index =
        Annotations.of? role.category ⟨l, w, c'⟩ index := rfl
      simp only [Option.bind_eq_bind, Option.bind_some, ha]
      cases Annotations.of? role.category ⟨l, w, c'⟩ index <;> rfl

/-- A query on any column of a word finds what indexing finds for that word: the same role, name,
annotations and source word, in the same line; only the cursor differs. -/
theorem onLine_index_eq_onColumn? [KeyOrder] (index : Index) (line : Line) (number : Int) (file : String)
    (hfile : file ≠ "") (w : Word) (hw : w ∈ Word.ofLine (LineShape.withoutComment line))
    (column : Int) (hs : w.start ≤ column) (he : column ≤ w.last) :
    (onLine index line number file)[w.index]? =
      some ((onColumn? index line number file column).map (withCursor w.start)) := by
  obtain ⟨column, rfl⟩ := Int.eq_ofNat_of_zero_le (show 0 ≤ column by omega)
  have hs : w.start ≤ column := by omega
  have he : column ≤ w.last := by omega
  have hline : line ≠ [] := by
    rintro rfl
    simp [LineShape.withoutComment, Text.before, Text.cut?, Word.ofLine, Word.scan] at hw
  have hcond : ¬ (line = [] ∨ file = "") := not_or.2 ⟨hline, hfile⟩
  unfold onLine onColumn?
  rw [if_neg hcond, if_neg hcond]
  have hwords : (LineContext.ofLine line number file).words =
    Word.ofLine (LineShape.withoutComment line) := rfl
  have hsame := sameWord_of_mem (l := LineContext.ofLine line number file) rfl hw hs he
  simp only [List.getElem?_map, hwords, Word.getElem?_index hw, Word.at?_ofLine hw hs he,
    Option.map_some, Option.bind_eq_bind, Option.bind_some]
  rw [ofContext?_sameWord hsame]
  rfl

section
attribute [local instance] KeyOrder.ascending

/-- The second value of a line with four animations, asked for on its middle column. -/
theorem onLine_index_second_value :
    let line := "walkanim=a,bcd".toList
    (⟨"bcd", 11, 2⟩ : Word) ∈ Word.ofLine (LineShape.withoutComment line) ∧
      (onColumn? {} line 0 "x.npc" 12).map (fun m => m.role.category) = some .seq ∧
      (onLine {} line 0 "x.npc")[2]? = some ((onColumn? {} line 0 "x.npc" 12).map (withCursor 11)) := by
  have hw : (⟨"bcd", 11, 2⟩ : Word) ∈
      Word.ofLine (LineShape.withoutComment "walkanim=a,bcd".toList) := by decide
  exact ⟨hw, by decide, onLine_index_eq_onColumn? {} "walkanim=a,bcd".toList 0 "x.npc" (by decide)
    ⟨"bcd", 11, 2⟩ hw 12 (by decide) (by decide)⟩

end

end Match

end ScriptIndex
