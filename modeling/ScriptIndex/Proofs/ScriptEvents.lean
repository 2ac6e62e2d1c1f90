import Mathlib.Algebra.GroupWithZero.Nat
import ScriptIndex.Proofs.Pieces
import ScriptIndex.Proofs.Words
import ScriptIndex.ScriptBlock

/-! What happens to the variables of a script: where each event stands, that events come in the order in
which they are read, and that the text at an event is the name of its variable. -/
namespace ScriptIndex

def Position.Before (p q : Position) : Prop :=
  p.line < q.line ∨ p.line = q.line ∧ p.column < q.column

namespace Position.Before

theorem irrefl (p : Position) : ¬ p.Before p := by
  unfold Before
  omega

theorem asymm {p q : Position} (h : p.Before q) : ¬ q.Before p := by
  unfold Before at h ⊢
  omega

end Position.Before

namespace ScriptBlock

namespace Event

def name : Event → String
  | declared name _ _ _ => name
  | mentioned name _ => name

def location : Event → Location
  | declared _ _ _ location => location
  | mentioned _ location => location

def position (e : Event) : Position :=
  e.location.span.start

end Event

structure Shown (file : String) (number : Nat) (line : Line) (column : Nat) (e : Event) : Prop where
  location : e.location = .at file number column e.name.length
  text : e.name.toList <+: line.drop column

/-- The events among words are the words with a `$`, in order. -/
theorem map_wordEvents (file : String) (line column : Nat) (previous : Option Word)
    (words : List Word) :
    (wordEvents file line column previous words).map (fun e => (e.name, e.location)) =
      (words.filter isVariable).map fun w =>
        (w.value, Location.at file line (w.start + column : Nat) w.value.length) := by
  induction words generalizing previous with
  | nil => rfl
  | cons w words ih =>
    rw [wordEvents]
    by_cases hw : isVariable w = true
    · simp only [hw, if_true, List.filter_cons_of_pos hw, List.map_cons]
      rw [← ih (some w)]
      split <;> rfl
    · simp only [hw, Bool.false_eq_true, if_false, List.filter_cons_of_neg hw, ih]

theorem mem_wordEvents {file : String} {line column : Nat} {previous : Option Word}
    {words : List Word} {e : Event} (h : e ∈ wordEvents file line column previous words) :
    ∃ w ∈ words, isVariable w = true ∧ e.name = w.value ∧
      e.location = .at file line (w.start + column : Nat) w.value.length := by
  have hm := List.mem_map_of_mem (f := fun e : Event => (e.name, e.location)) h
  rw [map_wordEvents] at hm
  obtain ⟨w, hw, he⟩ := List.mem_map.1 hm
  obtain ⟨hw, hv⟩ := List.mem_filter.1 hw
  obtain ⟨hn, hl⟩ := Prod.mk.inj he
  exact ⟨w, hw, hv, hn.symm, hl.symm⟩

theorem exists_wordEvent (file : String) (line column : Nat) (previous : Option Word)
    {words : List Word} {w : Word} (hw : w ∈ words) (hv : isVariable w = true) :
    ∃ e ∈ wordEvents file line column previous words, e.name = w.value ∧
      e.location = .at file line (w.start + column : Nat) w.value.length := by
  have hm := List.mem_map_of_mem (f := fun w : Word =>
    (w.value, Location.at file line (w.start + column : Nat) w.value.length))
    (List.mem_filter.2 ⟨hw, hv⟩)
  rw [← map_wordEvents file line column previous] at hm
  obtain ⟨e, he, heq⟩ := List.mem_map.1 hm
  obtain ⟨hn, hl⟩ := Prod.mk.inj heq
  exact ⟨e, he, hn, hl⟩

/-- A word is declared exactly if the word right before it defines its type. -/
theorem declared_mem_wordEvents {file : String} {line column : Nat} {previous : Option Word}
    {words : List Word} {name type : String} {isParameter : Bool} {l : Location} :
    .declared name type isParameter l ∈ wordEvents file line column previous words ↔
      ∃ u w, [u, w] <:+: previous.toList ++ words ∧ definedType? u = some type ∧
        isVariable w = true ∧ w.value = name ∧ isParameter = false ∧
        l = .at file line (w.start + column : Nat) name.length := by
  induction words generalizing previous with
  | nil =>
    refine ⟨fun h => by simp [wordEvents] at h, ?_⟩
    rintro ⟨u, w, hi, -⟩
    have hl := hi.length_le
    cases previous <;> simp at hl
  | cons w words ih =>
    -- A pair of neighbours stands at the front, or further on.
    have hpairs (u v : Word) : [u, v] <:+: previous.toList ++ w :: words ↔
        (previous = some u ∧ v = w) ∨ [u, v] <:+: (some w).toList ++ words := by
      cases previous with
      | none => simp
      | some p =>
        rw [Option.toList_some, List.singleton_append, List.infix_cons_iff]
        simp only [Option.toList_some, List.singleton_append, List.cons_prefix_cons, List.nil_prefix,
          and_true, Option.some.injEq]
        exact or_congr_left (and_congr_left' eq_comm)
    simp only [hpairs, or_and_right, exists_or]
    rw [← ih, wordEvents]
    by_cases hw : isVariable w = true
    · simp only [hw, if_true]
      cases ht : previous.bind definedType? with
      | none =>
        have hno : ¬ ∃ u v, (previous = some u ∧ v = w) ∧ definedType? u = some type ∧
            isVariable v = true ∧ v.value = name ∧ isParameter = false ∧
            l = .at file line (v.start + column : Nat) name.length := by
          rintro ⟨u, v, ⟨rfl, -⟩, hu, -⟩
          simp [hu] at ht
        simp only [hno, false_or, List.mem_cons, reduceCtorEq]
      | some t =>
        obtain ⟨u, rfl, hu⟩ := Option.bind_eq_some_iff.1 ht
        simp only [List.mem_cons, Event.declared.injEq]
        refine or_congr_left ⟨?_, ?_⟩
        · rintro ⟨rfl, rfl, rfl, rfl⟩
          exact ⟨u, w, ⟨rfl, rfl⟩, hu, hw, rfl, rfl, rfl⟩
        · rintro ⟨u', v, ⟨hu', rfl⟩, ht', -, rfl, rfl, rfl⟩
          cases hu'
          exact ⟨rfl, Option.some.inj (ht'.symm.trans hu), rfl, rfl⟩
    · simp only [hw, Bool.false_eq_true, if_false]
      refine ⟨.inr, fun h => h.elim ?_ id⟩
      rintro ⟨u, v, ⟨-, rfl⟩, -, hv, -⟩
      exact absurd hv hw

def Code.words (c : Code) : List Word :=
  Word.ofLineWithVariables (LineShape.withoutComment c.text)

theorem Code.word_prefix {c : Code} {w : Word} (h : w ∈ c.words) :
    w.value.toList <+: c.text.drop w.start := by
  refine (Word.prefix_of_mem_scan h).trans ?_
  obtain ⟨comment, hc⟩ := Text.before_prefix "//".toList c.text
  conv => rhs; rw [← hc, List.drop_append]
  exact List.prefix_append _ _

theorem codeEvents_position {file : String} {c : Code} {e : Event} (h : e ∈ codeEvents file c) :
    e.position.line = c.line ∧ (c.column : Int) ≤ e.position.column := by
  obtain ⟨w, -, -, -, hl⟩ := mem_wordEvents h
  unfold Event.position
  rw [hl]
  refine ⟨rfl, ?_⟩
  simp only [Location.at, Position.span]
  omega

theorem codeEvents_pairwise (file : String) (c : Code) :
    (codeEvents file c).Pairwise fun a b => a.position.Before b.position := by
  have hwords := (Word.ofLineWithVariables_pairwise (LineShape.withoutComment c.text)).filter
    isVariable
  have hmap := List.pairwise_map (f := fun w : Word =>
    (w.value, Location.at file c.line (w.start + c.column : Nat) w.value.length))
    (R := fun a b => a.2.span.start.Before b.2.span.start)
    (l := (Word.ofLineWithVariables (LineShape.withoutComment c.text)).filter isVariable)
  rw [← map_wordEvents file c.line c.column none, List.pairwise_map] at hmap
  refine hmap.2 (hwords.imp fun {a b} hab => .inr ⟨rfl, ?_⟩)
  simp only [Location.at, Position.span]
  omega

private theorem group?_spec {header text : List Char} {cursor : Nat}
    (h : group? header = some (cursor, text)) :
    text <+: header.drop cursor ∧ cursor + text.length < header.length := by
  unfold group? at h
  obtain ⟨opening, -, h⟩ := Option.bind_eq_some_iff.1 h
  obtain ⟨closing, hc, h⟩ := Option.bind_eq_some_iff.1 h
  have hlt : closing < header.length := by
    obtain ⟨hlt, -⟩ := List.idxOf?_eq_some_iff.1 hc
    exact hlt
  split at h
  · rename_i ho
    cases h
    refine ⟨?_, ?_⟩
    · rw [List.drop_take]
      exact List.take_prefix _ _
    · simp only [List.length_drop, List.length_take]
      omega
  · cases h

/-- The name of a parameter stands in its piece. -/
theorem exists_find?_of_parse? {piece : List Char} {p : Parameter}
    (h : Parameter.parse? piece = some p) :
    ∃ n, Text.find? p.name.toList piece = some n ∧ n + p.name.length ≤ piece.length := by
  unfold Parameter.parse? at h
  split at h
  · rename_i type name hs
    cases h
    have hjoin : [' '].intercalate (List.splitOn ' ' (Text.strip piece)) = Text.strip piece :=
      List.intercalate_splitOn ' '
    rw [hs] at hjoin
    obtain ⟨front, back, hp⟩ := Text.strip_infix piece
    have hp : piece = (front ++ (type ++ [' '])) ++ name ++ back := by
      rw [← hp, ← hjoin]
      simp [List.intercalate_cons_cons]
    obtain ⟨n, hn, hf⟩ := Text.exists_find?_of_append (front ++ (type ++ [' '])) name back
    rw [← hp] at hf
    refine ⟨n, by simpa using hf, ?_⟩
    have hl := congrArg List.length hp
    simp only [List.length_append, List.length_cons, List.length_nil] at hl hn
    rw [← String.length_toList, String.toList_ofList]
    omega
  · cases h

/-- Where pieces with commas between them stand, the first piece stands, and behind its comma the
others. -/
private theorem prefix_of_intercalate {header piece : List Char} {pieces : List (List Char)} {cursor : Nat}
    (h : [','].intercalate (piece :: pieces) <+: header.drop cursor) :
    piece <+: header.drop cursor ∧
      [','].intercalate pieces <+: header.drop (cursor + piece.length + 1) := by
  cases pieces with
  | nil => exact ⟨by simpa using h, List.nil_prefix⟩
  | cons next pieces =>
    obtain ⟨rest, hr⟩ := h
    rw [List.intercalate_cons_cons, List.append_assoc, List.append_assoc] at hr
    refine ⟨⟨_, hr⟩, rest, ?_⟩
    rw [Nat.add_assoc, ← List.drop_drop, ← hr, List.drop_length_add_append]
    rfl

/-- A piece among others stands behind those before it and their commas. -/
private theorem intercalate_append (before : List (List Char)) (piece : List Char)
    (after : List (List Char)) :
    ∃ front back, [','].intercalate (before ++ piece :: after) = front ++ piece ++ back ∧
      front.length = (before.map (·.length + 1)).sum := by
  induction before with
  | nil =>
    cases after with
    | nil => exact ⟨[], [], by simp, rfl⟩
    | cons next after => exact ⟨[], _, by rw [List.nil_append, List.intercalate_cons_cons,
        List.append_assoc, List.nil_append], rfl⟩
  | cons first before ih =>
    obtain ⟨front, back, hj, hl⟩ := ih
    refine ⟨first ++ ',' :: front, back, ?_, ?_⟩
    · rw [List.cons_append, List.intercalate_cons_of_ne_nil (by simp), hj]
      simp
    · simp only [List.length_append, List.length_cons, hl, List.map_cons, List.sum_cons]
      omega

def parameterAt (file : String) (line cursor : Nat) (before : List (List Char)) (piece : List Char)
    (p : Parameter) : Event :=
  .declared p.name p.type true
    (.at file line
      (cursor + (before.map (·.length + 1)).sum + (Text.find? p.name.toList piece).getD 0 : Nat)
      p.name.length)

/-- The parameters of a header are those of its pieces. -/
private theorem mem_parameterEvents {file : String} {line : Nat} {header : Line} {cursor : Nat}
    {pieces : List (List Char)} (hl : [','].intercalate pieces <+: header.drop cursor) {e : Event} :
    e ∈ parameterEvents file line header cursor pieces ↔
      ∃ before piece after p, pieces = before ++ piece :: after ∧
        Parameter.parse? piece = some p ∧ e = parameterAt file line cursor before piece p := by
  induction pieces generalizing cursor with
  | nil => simp [parameterEvents]
  | cons piece pieces ih =>
    obtain ⟨hpiece, hrest⟩ := prefix_of_intercalate hl
    have hsplit : (∃ before piece' after p, piece :: pieces = before ++ piece' :: after ∧
        Parameter.parse? piece' = some p ∧ e = parameterAt file line cursor before piece' p) ↔
        (∃ p, Parameter.parse? piece = some p ∧ e = parameterAt file line cursor [] piece p) ∨
          e ∈ parameterEvents file line header (cursor + piece.length + 1) pieces := by
      rw [ih hrest]
      constructor
      · rintro ⟨before, piece', after, p, he, hp, rfl⟩
        cases before with
        | nil =>
          obtain ⟨rfl, rfl⟩ := List.cons.inj he
          exact .inl ⟨p, hp, rfl⟩
        | cons b before =>
          obtain ⟨rfl, rfl⟩ := List.cons.inj he
          refine .inr ⟨before, piece', after, p, rfl, hp, ?_⟩
          simp only [parameterAt, List.map_cons, List.sum_cons, Nat.add_assoc]
      · rintro (⟨p, hp, rfl⟩ | ⟨before, piece', after, p, rfl, hp, rfl⟩)
        · exact ⟨[], piece, pieces, p, rfl, hp, rfl⟩
        · refine ⟨piece :: before, piece', after, p, rfl, hp, ?_⟩
          simp only [parameterAt, List.map_cons, List.sum_cons, Nat.add_assoc]
    rw [hsplit, parameterEvents]
    dsimp only
    cases hp : Parameter.parse? piece with
    | none => simp
    | some p =>
      -- The name is found in the rest of the header where it is found in its piece.
      obtain ⟨n, hn, -⟩ := exists_find?_of_parse? hp
      obtain ⟨rest, hr⟩ := hpiece
      have hfind : Text.find? p.name.toList (header.drop cursor) =
          Text.find? p.name.toList piece := by
        rw [← hr, Text.find?_append hn, hn]
      simp [parameterAt, hfind]

/-- Parameters are declared one after the other. -/
theorem parameterEvents_pairwise {file : String} {line : Nat} {header : Line} {cursor : Nat}
    {pieces : List (List Char)} (hl : [','].intercalate pieces <+: header.drop cursor) :
    (parameterEvents file line header cursor pieces).Pairwise
      fun a b => a.position.Before b.position := by
  induction pieces generalizing cursor with
  | nil => exact .nil
  | cons piece pieces ih =>
    obtain ⟨hpiece, hrest⟩ := prefix_of_intercalate hl
    rw [parameterEvents]
    dsimp only
    cases hp : Parameter.parse? piece with
    | none => exact ih hrest
    | some p =>
      obtain ⟨n, hn, hle⟩ := exists_find?_of_parse? hp
      obtain ⟨rest, hr⟩ := hpiece
      refine List.pairwise_cons.2 ⟨fun e he => .inr ?_, ih hrest⟩
      obtain ⟨before, piece', after, p', -, -, rfl⟩ := (mem_parameterEvents hrest).1 he
      rw [← hr, Text.find?_append hn]
      refine ⟨rfl, ?_⟩
      simp only [Event.position, Event.location, parameterAt, Location.at, Position.span,
        Option.getD_some]
      omega

/-- What happens in a header are the declarations of its parameters, between its first parentheses. -/
theorem mem_headerEvents {file : String} {line : Nat} {header : Line} {e : Event} :
    e ∈ headerEvents file line header ↔
      ∃ cursor text before piece after p, group? header = some (cursor, text) ∧
        List.splitOn ',' text = before ++ piece :: after ∧ Parameter.parse? piece = some p ∧
        e = parameterAt file line cursor before piece p := by
  unfold headerEvents
  cases hg : group? header with
  | none => simp
  | some group =>
    obtain ⟨cursor, text⟩ := group
    have hl : [','].intercalate (List.splitOn ',' text) <+: header.drop cursor := by
      rw [List.intercalate_splitOn]
      exact (group?_spec hg).1
    simp only [mem_parameterEvents hl, Option.some.injEq, Prod.mk.injEq]
    constructor
    · rintro ⟨before, piece, after, p, hs, hp, he⟩
      exact ⟨cursor, text, before, piece, after, p, ⟨rfl, rfl⟩, hs, hp, he⟩
    · rintro ⟨_, _, before, piece, after, p, ⟨rfl, rfl⟩, hs, hp, he⟩
      exact ⟨before, piece, after, p, hs, hp, he⟩

theorem headerEvents_pairwise (file : String) (line : Nat) (header : Line) :
    (headerEvents file line header).Pairwise fun a b => a.position.Before b.position := by
  unfold headerEvents
  split
  · rename_i cursor text hg
    apply parameterEvents_pairwise
    rw [List.intercalate_splitOn]
    exact (group?_spec hg).1
  · exact .nil

/-- A parameter is shown in its header. -/
theorem headerEvents_shown {file : String} {line : Nat} {header : Line} {e : Event}
    (h : e ∈ headerEvents file line header) :
    ∃ column < header.length, Shown file line header column e := by
  obtain ⟨cursor, text, before, piece, after, p, hg, hs, hp, rfl⟩ := mem_headerEvents.1 h
  obtain ⟨⟨rest, hr⟩, hlen⟩ := group?_spec hg
  obtain ⟨n, hn, hle⟩ := exists_find?_of_parse? hp
  obtain ⟨front, back, htext, hsum⟩ := intercalate_append before piece after
  rw [← hs, List.intercalate_splitOn] at htext
  have hcolumn : cursor + (before.map (·.length + 1)).sum + n < header.length := by
    have hl := congrArg List.length htext
    simp only [List.length_append] at hl
    omega
  refine ⟨_, hcolumn, ⟨?_, ?_⟩⟩
  · simp only [parameterAt, Event.location, Event.name, hn, Option.getD_some]
  · show p.name.toList <+: _
    rw [← hsum, Nat.add_assoc, ← List.drop_drop, ← hr, htext, ← List.drop_drop, List.append_assoc,
      List.append_assoc, List.drop_left]
    refine (Text.prefix_drop_of_find? hn).trans ?_
    rw [List.drop_append]
    exact List.prefix_append _ _

end ScriptBlock

end ScriptIndex
