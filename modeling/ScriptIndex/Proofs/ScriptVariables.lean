import Mathlib.Data.List.Induction
import Mathlib.Data.List.Nodup
import ScriptIndex.Proofs.ScriptEvents

/-! The scripts of a text and their local variables. A script starts at every header and owns the lines
up to the next one; its table holds, for each variable, the latest declaration and exactly what is said
of it afterwards. -/
namespace ScriptIndex

namespace ScriptBlock

/-- The code from a line on up to the next header. -/
theorem mem_split_code {number : Nat} {lines : List Line} {c : Code} :
    c ∈ (split number lines).1 ↔ ∃ m line, lines[m]? = some line ∧ c = ⟨number + m, 0, line⟩ ∧
      ∀ k ≤ m, ∀ l, lines[k]? = some l → LineShape.isTriggerLine l = false := by
  induction lines generalizing number with
  | nil => simp [split]
  | cons first rest ih =>
    rw [split]
    by_cases hf : LineShape.isTriggerLine first = true
    · simp only [hf, if_true, List.not_mem_nil, false_iff]
      rintro ⟨m, line, -, -, hn⟩
      exact absurd (hn 0 (Nat.zero_le m) first rfl) (by simp [hf])
    · simp only [hf, Bool.false_eq_true, if_false, List.mem_cons, ih]
      constructor
      · rintro (rfl | ⟨m, line, hl, rfl, hn⟩)
        · refine ⟨0, first, rfl, rfl, fun k hk l hl => ?_⟩
          obtain rfl : k = 0 := by omega
          cases hl
          simpa using hf
        · refine ⟨m + 1, line, hl, by rw [Nat.add_right_comm, Nat.add_assoc], fun k hk l hl => ?_⟩
          cases k with
          | zero =>
            cases hl
            simpa using hf
          | succ k => exact hn k (by omega) l hl
      · rintro ⟨m, line, hl, rfl, hn⟩
        cases m with
        | zero =>
          cases hl
          exact .inl rfl
        | succ m =>
          refine .inr ⟨m, line, hl, by rw [Nat.add_right_comm, Nat.add_assoc], fun k hk l hl => ?_⟩
          exact hn (k + 1) (by omega) l hl

private theorem split_code_pairwise (number : Nat) (lines : List Line) :
    (split number lines).1.Pairwise fun a b => a.line < b.line := by
  induction lines generalizing number with
  | nil => exact .nil
  | cons first rest ih =>
    rw [split]
    dsimp only
    split
    · exact .nil
    · refine List.pairwise_cons.2 ⟨fun c hc => ?_, ih (number + 1)⟩
      obtain ⟨m, line, -, rfl, -⟩ := mem_split_code.1 hc
      show number < number + 1 + m
      omega

def sourceAt (lines : List Line) (start : Nat) (line : Line) : Source where
  start := start
  header := line.take (LineShape.headerLength line)
  code := ⟨start, LineShape.headerLength line, line.drop (LineShape.headerLength line)⟩ ::
    (split (start + 1) (lines.drop (start + 1))).1

/-- The scripts are those of the headers. -/
private theorem mem_split {number : Nat} {lines all : List Line} (h : all.drop number = lines)
    {s : Source} :
    s ∈ (split number lines).2 ↔ ∃ start line, number ≤ start ∧ all[start]? = some line ∧
      LineShape.isTriggerLine line = true ∧ s = sourceAt all start line := by
  induction lines generalizing number with
  | nil =>
    have hlen : all.length ≤ number := List.drop_eq_nil_iff.1 h
    simp only [split, List.not_mem_nil, false_iff]
    rintro ⟨start, line, hs, hl, -⟩
    obtain ⟨hlt, -⟩ := List.getElem?_eq_some_iff.1 hl
    omega
  | cons first rest ih =>
    have hfirst : all[number]? = some first := by
      rw [← List.head?_drop, h]
      rfl
    have hrest : all.drop (number + 1) = rest := by
      rw [← List.drop_drop, h]
      rfl
    -- A header from here on is this line or a later one.
    have hsplit : (∃ start line, number ≤ start ∧ all[start]? = some line ∧
        LineShape.isTriggerLine line = true ∧ s = sourceAt all start line) ↔
        (LineShape.isTriggerLine first = true ∧ s = sourceAt all number first) ∨
          s ∈ (split (number + 1) rest).2 := by
      rw [ih hrest]
      constructor
      · rintro ⟨start, line, hs, hl, ht, rfl⟩
        by_cases he : start = number
        · subst he
          cases hfirst.symm.trans hl
          exact .inl ⟨ht, rfl⟩
        · exact .inr ⟨start, line, by omega, hl, ht, rfl⟩
      · rintro (⟨ht, rfl⟩ | ⟨start, line, hs, hl, ht, rfl⟩)
        · exact ⟨number, first, Nat.le_refl _, hfirst, ht, rfl⟩
        · exact ⟨start, line, by omega, hl, ht, rfl⟩
    rw [hsplit, split]
    by_cases hf : LineShape.isTriggerLine first = true
    · simp only [hf, if_true, List.mem_cons, true_and, sourceAt, hrest]
    · simp only [hf, Bool.false_eq_true, if_false, false_and, false_or]

private theorem split_pairwise (number : Nat) (lines : List Line) :
    (split number lines).2.Pairwise fun a b => a.start < b.start := by
  induction lines generalizing number with
  | nil => exact .nil
  | cons first rest ih =>
    rw [split]
    dsimp only
    split
    · refine List.pairwise_cons.2 ⟨fun s hs => ?_, ih (number + 1)⟩
      have hd : (List.replicate (number + 1) [] ++ rest).drop (number + 1) = rest := by
        rw [List.drop_left' (List.length_replicate)]
      obtain ⟨start, line, hle, -, -, rfl⟩ := (mem_split hd).1 hs
      show number < start
      omega
    · exact ih (number + 1)

private theorem events_pairwise (file : String) (lines : List Line) (start : Nat) (line : Line) :
    (events file (sourceAt lines start line)).Pairwise fun a b => a.position.Before b.position := by
  have hcode : (sourceAt lines start line).code.Pairwise fun a b => a.line < b.line := by
    refine List.pairwise_cons.2 ⟨fun c hc => ?_, split_code_pairwise _ _⟩
    obtain ⟨m, l, -, rfl, -⟩ := mem_split_code.1 hc
    show start < start + 1 + m
    omega
  unfold events
  refine List.pairwise_append.2 ⟨headerEvents_pairwise _ _ _, ?_, ?_⟩
  · refine List.pairwise_flatMap.2 ⟨fun c _ => codeEvents_pairwise file c, hcode.imp ?_⟩
    intro a b hab x hx y hy
    have hx := (codeEvents_position hx).1
    have hy := (codeEvents_position hy).1
    exact .inl (by omega)
  · -- The header ends where the code on its line starts.
    intro x hx y hy
    obtain ⟨column, hc, hs⟩ := headerEvents_shown hx
    obtain ⟨c, hcm, hy⟩ := List.mem_flatMap.1 hy
    obtain ⟨hyl, hyc⟩ := codeEvents_position hy
    have hxl : x.position.line = start := by rw [Event.position, hs.location]; rfl
    have hxc : x.position.column = column := by rw [Event.position, hs.location]; rfl
    have hlen : column < LineShape.headerLength line := by
      have := List.length_take_le (LineShape.headerLength line) line
      simp only [sourceAt] at hc
      omega
    rcases List.mem_cons.1 hcm with rfl | hcm
    · dsimp only at hyl hyc
      exact .inr ⟨by omega, by omega⟩
    · obtain ⟨m, l, -, rfl, -⟩ := mem_split_code.1 hcm
      dsimp only at hyl
      exact .inl (by omega)

def Event.on (name : String) (v : Option Variable) : Event → Option Variable
  | .declared other type isParameter location =>
    if other = name then some ⟨type, isParameter, location, [location]⟩ else v
  | .mentioned other location =>
    if other = name then v.map fun v => { v with references := v.references ++ [location] } else v

private theorem lookup_cons_eq (name : String) (entry : String × Variable)
    (rest : List (String × Variable)) :
    (entry :: rest).lookup name = if entry.1 = name then some entry.2 else rest.lookup name := by
  rw [List.lookup_cons]
  by_cases h : name = entry.1
  · simp [h]
  · simp [beq_eq_false_iff_ne.2 h, Ne.symm h]

private theorem lookup_insert (name other : String) (v : Variable) (locals : List (String × Variable)) :
    (insert other v locals).lookup name = if other = name then some v else locals.lookup name := by
  induction locals with
  | nil => rw [insert, lookup_cons_eq]
  | cons entry rest ih =>
    rw [insert]
    split
    · rename_i he
      rw [lookup_cons_eq, lookup_cons_eq, he]
      split <;> rfl
    · rename_i he
      rw [lookup_cons_eq, lookup_cons_eq, ih]
      by_cases hn : entry.1 = name
      · rw [if_pos hn, if_pos hn, if_neg fun h => he (hn.trans h.symm)]
      · rw [if_neg hn, if_neg hn]

private theorem lookup_map_references (name other : String) (location : Location)
    (locals : List (String × Variable)) :
    (locals.map fun entry => if entry.1 = other then
      (entry.1, { entry.2 with references := entry.2.references ++ [location] }) else entry).lookup
        name =
      if other = name then
        (locals.lookup name).map fun v => { v with references := v.references ++ [location] }
      else locals.lookup name := by
  induction locals with
  | nil => simp
  | cons entry rest ih =>
    rw [List.map_cons, lookup_cons_eq, lookup_cons_eq, ih]
    by_cases hk : entry.1 = other
    · rw [if_pos hk]
      by_cases hn : entry.1 = name
      · simp only [hn, ← hk, if_true, Option.map_some]
      · simp only [hn, if_false]
    · rw [if_neg hk]
      by_cases hn : entry.1 = name
      · simp only [hn, if_true, if_neg fun h => hk (hn.trans (Eq.symm h))]
      · simp only [hn, if_false]

theorem lookup_apply (name : String) (locals : List (String × Variable)) (e : Event) :
    (apply locals e).lookup name = e.on name (locals.lookup name) := by
  cases e with
  | declared other type isParameter location => exact lookup_insert _ _ _ _
  | mentioned other location => exact lookup_map_references _ _ _ _

private theorem lookup_foldl_apply (name : String) (events : List Event)
    (locals : List (String × Variable)) :
    (events.foldl apply locals).lookup name =
      events.foldl (fun v e => e.on name v) (locals.lookup name) := by
  induction events generalizing locals with
  | nil => rfl
  | cons e events ih => rw [List.foldl_cons, List.foldl_cons, ih, lookup_apply]

/-- The latest declaration of a name among events that come in order: the events before it, itself, and
the events after it, none of which declares the name. -/
structure Latest (name : String) (v : Variable) (events before after : List Event) : Prop where
  split : events = before ++ .declared name v.type v.isParameter v.declaration :: after
  last : ∀ type isParameter location, .declared name type isParameter location ∉ after
  references : v.references =
    v.declaration :: (after.filter fun e => e.name = name).map Event.location

/-- A variable of the table comes from the latest declaration of its name and the mentions since. -/
theorem exists_latest {name : String} {v : Variable} {events : List Event}
    (h : (events.foldl apply []).lookup name = some v) :
    ∃ before after, Latest name v events before after := by
  rw [lookup_foldl_apply] at h
  induction events using List.reverseRecOn generalizing v with
  | nil => simp at h
  | append_singleton events e ih =>
    rw [List.foldl_append] at h
    -- An event on another name changes nothing but what stands after the declaration.
    have other (he : e.name ≠ name)
        (hv : events.foldl (fun v e => e.on name v) ([].lookup name) = some v) :
        ∃ before after, Latest name v (events ++ [e]) before after := by
      obtain ⟨before, after, hl⟩ := ih hv
      refine ⟨before, after ++ [e], ?_, ?_, ?_⟩
      · rw [hl.split]
        simp
      · intro type isParameter location hm
        rcases List.mem_append.1 hm with hm | hm
        · exact hl.last _ _ _ hm
        · rw [← List.mem_singleton.1 hm] at he
          exact he rfl
      · rw [hl.references]
        simp [he]
    cases e with
    | declared other' type isParameter location =>
      by_cases hn : other' = name
      · subst hn
        simp only [List.foldl_cons, List.foldl_nil, Event.on, if_true, Option.some.injEq] at h
        subst h
        exact ⟨events, [], rfl, by simp, rfl⟩
      · simp only [List.foldl_cons, List.foldl_nil, Event.on, hn, if_false] at h
        exact other hn h
    | mentioned other' location =>
      by_cases hn : other' = name
      · subst hn
        simp only [List.foldl_cons, List.foldl_nil, Event.on, if_true] at h
        obtain ⟨u, hu, rfl⟩ := Option.map_eq_some_iff.1 h
        obtain ⟨before, after, hl⟩ := ih hu
        refine ⟨before, after ++ [.mentioned other' location], ?_, ?_, ?_⟩
        · rw [hl.split]
          simp
        · intro type isParameter l hm
          rcases List.mem_append.1 hm with hm | hm
          · exact hl.last _ _ _ hm
          · simp at hm
        · rw [hl.references]
          simp [Event.name, Event.location]
      · simp only [List.foldl_cons, List.foldl_nil, Event.on, hn, if_false] at h
        exact other hn h

/-- A place among the references of a variable is that of an event on its name. -/
theorem Latest.exists_event {name : String} {v : Variable} {events before after : List Event}
    (h : Latest name v events before after) {l : Location} (hl : l ∈ v.references) :
    ∃ e ∈ events, e.name = name ∧ e.location = l := by
  rw [h.references] at hl
  rw [h.split]
  rcases List.mem_cons.1 hl with rfl | hl
  · exact ⟨_, List.mem_append_right _ List.mem_cons_self, rfl, rfl⟩
  · obtain ⟨e, he, rfl⟩ := List.mem_map.1 hl
    obtain ⟨he, hn⟩ := List.mem_filter.1 he
    exact ⟨e, by simp [he], by simpa using hn, rfl⟩

/-- The column where the code on a line of a script starts: behind the header on its first line. -/
def codeColumn (b : ScriptBlock) (number : Nat) (line : Line) : Nat :=
  if number = b.start then LineShape.headerLength line else 0

def wordsOn (b : ScriptBlock) (number : Nat) (line : Line) : List Word :=
  Word.ofLineWithVariables (LineShape.withoutComment (line.drop (b.codeColumn number line)))

theorem mem_ofLines {file : String} {lines : List Line} {b : ScriptBlock} :
    b ∈ ofLines file lines ↔ ∃ start line, lines[start]? = some line ∧
      LineShape.isTriggerLine line = true ∧ b = ofSource file (sourceAt lines start line) := by
  unfold ofLines
  simp only [List.mem_map, mem_split (List.drop_zero (l := lines)), Nat.zero_le, true_and]
  constructor
  · rintro ⟨s, ⟨start, line, hl, ht, rfl⟩, rfl⟩
    exact ⟨start, line, hl, ht, rfl⟩
  · rintro ⟨start, line, hl, ht, rfl⟩
    exact ⟨_, ⟨start, line, hl, ht, rfl⟩, rfl⟩

private theorem ofLines_pairwise (file : String) (lines : List Line) :
    (ofLines file lines).Pairwise fun a b => a.start < b.start :=
  List.pairwise_map.2 (split_pairwise 0 lines)

end ScriptBlock

namespace ScriptCache

/-- In a cache whose scripts stand in order, a line belongs to the last script that starts before it. -/
theorem at?_eq_some_iff {s : ScriptCache} (h : s.blocks.Pairwise fun a b => a.start < b.start)
    {line : Int} {b : ScriptBlock} :
    s.at? line = some b ↔ b ∈ s.blocks ∧ (b.start : Int) ≤ line ∧
      ∀ c ∈ s.blocks, (c.start : Int) ≤ line → c.start ≤ b.start := by
  have hsorted := h.filter fun b : ScriptBlock => decide ((b.start : Int) ≤ line)
  -- The last of the scripts that start no later starts last.
  have hlast (c : ScriptBlock) (hc : s.at? line = some c) : c ∈ s.blocks ∧ (c.start : Int) ≤ line ∧
      ∀ d ∈ s.blocks, (d.start : Int) ≤ line → d.start ≤ c.start := by
    obtain ⟨before, hb⟩ := List.getLast?_eq_some_iff.1 hc
    have hm : c ∈ s.blocks.filter fun b => decide ((b.start : Int) ≤ line) := by simp [hb]
    obtain ⟨hm, hle⟩ := List.mem_filter.1 hm
    refine ⟨hm, by simpa using hle, fun d hd hdl => ?_⟩
    have hd : d ∈ s.blocks.filter fun b => decide ((b.start : Int) ≤ line) :=
      List.mem_filter.2 ⟨hd, by simpa using hdl⟩
    rw [hb] at hd hsorted
    rcases List.mem_append.1 hd with hd | hd
    · exact Nat.le_of_lt ((List.pairwise_append.1 hsorted).2.2 d hd c (by simp))
    · exact Nat.le_of_eq (by rw [List.mem_singleton.1 hd])
  refine ⟨hlast b, ?_⟩
  rintro ⟨hb, hle, hmax⟩
  cases hc : s.at? line with
  | none =>
    have hempty := List.getLast?_eq_none_iff.1 hc
    exact absurd hle (by simpa using List.filter_eq_nil_iff.1 hempty b hb)
  | some c =>
    obtain ⟨hm, hcl, hcmax⟩ := hlast c hc
    have he : b.start = c.start := Nat.le_antisymm (hcmax b hb hle) (hmax c hm hcl)
    have hnodup : (s.blocks.map ScriptBlock.start).Nodup :=
      List.pairwise_map.2 (h.imp Nat.ne_of_lt)
    rw [List.inj_on_of_nodup_map hnodup hb hm he]

private theorem at?_eq_none_iff {s : ScriptCache} {line : Int} :
    s.at? line = none ↔ ∀ b ∈ s.blocks, line < b.start := by
  unfold at?
  rw [List.getLast?_eq_none_iff, List.filter_eq_nil_iff]
  simp

end ScriptCache

namespace ScriptBlock

/-- Where a script declares a variable. -/
inductive DeclaredAt (lines : List Line) (cache : ScriptCache) (b : ScriptBlock) (name : String) :
    Position → Prop where
  /-- A parameter is declared where its name is first found in its piece of the header. -/
  | parameter {line : Line} {cursor n : Nat} {text piece : List Char}
      {before after : List (List Char)} {p : Parameter} :
      lines[b.start]? = some line →
      group? (line.take (LineShape.headerLength line)) = some (cursor, text) →
      List.splitOn ',' text = before ++ piece :: after → Parameter.parse? piece = some p →
      p.name = name → Text.find? name.toList piece = some n →
      DeclaredAt lines cache b name ⟨b.start, (cursor + (before.map (·.length + 1)).sum + n : Nat)⟩
  /-- A word with a `$` is declared right behind a word that defines its type. -/
  | word {number : Nat} {line : Line} {u w : Word} {type : String} :
      lines[number]? = some line → cache.at? number = some b → [u, w] <:+: b.wordsOn number line →
      definedType? u = some type → isVariable w = true → w.value = name →
      DeclaredAt lines cache b name ⟨number, (w.start + b.codeColumn number line : Nat)⟩

/-- A variable of a script is recorded exactly: with its latest declaration, in order from there on, at
places of the script that show its name, and without leaving out a word that stands after the
declaration and has the `$` of a variable. -/
structure Recorded (file : String) (lines : List Line) (cache : ScriptCache) (b : ScriptBlock)
    (name : String) (v : Variable) : Prop where
  declared : DeclaredAt lines cache b name v.declaration.span.start
  latest : ∀ p, DeclaredAt lines cache b name p → ¬ v.declaration.span.start.Before p
  ordered : v.references.Pairwise fun k l => k.span.start.Before l.span.start
  first : v.references.head? = some v.declaration
  shown : ∀ l ∈ v.references, ∃ (number column : Nat) (line : Line),
    l = .at file number column name.length ∧ lines[number]? = some line ∧
      cache.at? number = some b ∧ (line.drop column).take name.length = name.toList
  complete : name.toList.head? = some '$' → ∀ (number : Nat) (line : Line) (w : Word),
    lines[number]? = some line → cache.at? number = some b → w ∈ b.wordsOn number line →
    w.value = name →
    v.declaration.span.start.Before ⟨number, (w.start + b.codeColumn number line : Nat)⟩ →
    .at file number (w.start + b.codeColumn number line : Nat) name.length ∈ v.references

section
variable {file : String} {lines : List Line} {start : Nat} {first : Line} {cache : ScriptCache}
  (hfirst : lines[start]? = some first) (htrigger : LineShape.isTriggerLine first = true)
  (hcache : cache.blocks = ofLines file lines)
include hfirst htrigger hcache

/-- The pieces of code of a script are those of its lines. -/
theorem mem_code {c : Code} :
    c ∈ (sourceAt lines start first).code ↔ ∃ (number : Nat) (line : Line), lines[number]? = some line ∧
      cache.at? number = some (ofSource file (sourceAt lines start first)) ∧
      c = ⟨number, (ofSource file (sourceAt lines start first)).codeColumn number line,
        line.drop ((ofSource file (sourceAt lines start first)).codeColumn number line)⟩ := by
  have hsorted : cache.blocks.Pairwise fun a b => a.start < b.start := by
    rw [hcache]
    exact ofLines_pairwise file lines
  have hblock : ofSource file (sourceAt lines start first) ∈ cache.blocks := by
    rw [hcache]
    exact mem_ofLines.2 ⟨start, first, hfirst, htrigger, rfl⟩
  simp only [ScriptCache.at?_eq_some_iff hsorted, hblock, true_and, Int.ofNat_le]
  have hstart : (ofSource file (sourceAt lines start first)).start = start := rfl
  generalize ofSource file (sourceAt lines start first) = b at hstart ⊢
  -- A line is the script's if no other header stands between.
  have howner (number : Nat) : (∀ c ∈ cache.blocks, c.start ≤ number → c.start ≤ start) ↔
      ∀ k l, lines[k]? = some l → start < k → k ≤ number → LineShape.isTriggerLine l = false := by
    rw [hcache]
    constructor
    · intro h k l hk hlt hle
      rw [← Bool.not_eq_true]
      intro ht
      have := h _ (mem_ofLines.2 ⟨k, l, hk, ht, rfl⟩) hle
      exact absurd hlt (Nat.not_lt.2 this)
    · intro h c hc hle
      obtain ⟨k, l, hk, ht, rfl⟩ := mem_ofLines.1 hc
      by_contra hn
      have := h k l hk (Nat.lt_of_not_le hn) hle
      simp [ht] at this
  simp only [hstart, howner, sourceAt, List.mem_cons, mem_split_code, List.getElem?_drop]
  constructor
  · rintro (rfl | ⟨m, line, hl, rfl, hn⟩)
    · exact ⟨start, first, hfirst, ⟨Nat.le_refl _, fun k l _ h1 h2 => by omega⟩,
        by simp [codeColumn, hstart]⟩
    · refine ⟨start + 1 + m, line, hl, ⟨by omega, fun k l hk h1 h2 => ?_⟩, ?_⟩
      · refine hn (k - (start + 1)) (by omega) l ?_
        rw [← hk]
        congr 1
        omega
      · rw [codeColumn, if_neg (by rw [hstart]; omega), List.drop_zero]
  · rintro ⟨number, line, hl, ⟨hle, hn⟩, rfl⟩
    by_cases he : number = start
    · subst he
      cases hfirst.symm.trans hl
      exact .inl (by simp [codeColumn, hstart])
    · refine .inr ⟨number - (start + 1), line, ?_, ?_, fun k hk l hkl => ?_⟩
      · rw [← hl]
        congr 1
        omega
      · rw [codeColumn, if_neg (by rw [hstart]; exact he), List.drop_zero]
        congr 1
        omega
      · exact hn _ l hkl (by omega) (by omega)

/-- An event of a script stands on one of its lines, where the name of its variable is shown. -/
theorem events_shown {e : Event} (he : e ∈ events file (sourceAt lines start first)) :
    ∃ (number column : Nat) (line : Line), Shown file number line column e ∧
      lines[number]? = some line ∧ cache.at? number = some (ofSource file (sourceAt lines start first)) := by
  rcases List.mem_append.1 he with he | he
  · obtain ⟨column, -, hs⟩ := headerEvents_shown he
    obtain ⟨number, line, hl, hat, hc⟩ :=
      (mem_code hfirst htrigger hcache).1 (List.mem_cons_self (l := _))
    injection hc with hnumber
    subst hnumber
    cases hfirst.symm.trans hl
    refine ⟨start, column, first, ⟨hs.location, hs.text.trans ?_⟩, hfirst, hat⟩
    show (first.take _).drop column <+: first.drop column
    rw [List.drop_take]
    exact List.take_prefix _ _
  · obtain ⟨c, hc, he⟩ := List.mem_flatMap.1 he
    obtain ⟨number, line, hl, hat, rfl⟩ := (mem_code hfirst htrigger hcache).1 hc
    obtain ⟨w, hw, -, hn, hloc⟩ := mem_wordEvents he
    refine ⟨number, w.start + (ofSource file (sourceAt lines start first)).codeColumn number line,
      line, ⟨?_, ?_⟩, hl, hat⟩
    · rw [hn]
      exact hloc
    · rw [hn, Nat.add_comm, ← List.drop_drop]
      exact Code.word_prefix hw

/-- The declarations among the events of a script are where it declares a variable. -/
theorem declaredAt_iff {name : String} {p : Position} :
    DeclaredAt lines cache (ofSource file (sourceAt lines start first)) name p ↔
      ∃ type isParameter l, .declared name type isParameter l ∈
        events file (sourceAt lines start first) ∧ l.span.start = p := by
  unfold events
  simp only [List.mem_append, mem_headerEvents, List.mem_flatMap]
  constructor
  · intro h
    cases h with
    | parameter hl hg hs hp hn hf =>
      rename_i line cursor n text piece before after q
      cases hfirst.symm.trans hl
      subst hn
      refine ⟨q.type, true, _, .inl ⟨cursor, text, before, piece, after, q, hg, hs, hp, rfl⟩, ?_⟩
      simp only [hf, Option.getD_some]
      rfl
    | word hl hat hi ht hv hn =>
      rename_i number line u w type
      refine ⟨type, false, _, .inr ⟨_, (mem_code hfirst htrigger hcache).2 ⟨number, line, hl, hat, rfl⟩,
        declared_mem_wordEvents.2 ⟨u, w, hi, ht, hv, hn, rfl, rfl⟩⟩, rfl⟩
  · rintro ⟨type, isParameter, l, ⟨cursor, text, before, piece, after, q, hg, hs, hp, he⟩ | ⟨c, hc, he⟩, rfl⟩
    · injection he with hn _ _ hloc
      obtain ⟨n, hf, -⟩ := exists_find?_of_parse? hp
      subst hn hloc
      rw [hf]
      exact .parameter hfirst hg hs hp rfl hf
    · obtain ⟨number, line, hl, hat, rfl⟩ := (mem_code hfirst htrigger hcache).1 hc
      obtain ⟨u, w, hi, ht, hv, hn, -, rfl⟩ := declared_mem_wordEvents.1 he
      exact .word hl hat hi ht hv hn

/-- A variable in the table of a script is recorded exactly. -/
theorem recorded_of_named? {name : String} {v : Variable}
    (h : (ofSource file (sourceAt lines start first)).named? name = some v) :
    Recorded file lines cache (ofSource file (sourceAt lines start first)) name v := by
  obtain ⟨before, after, hlatest⟩ := exists_latest h
  have hsplit := hlatest.split
  have hsorted := events_pairwise file lines start first
  rw [hsplit] at hsorted
  obtain ⟨-, htail, hfront⟩ := List.pairwise_append.1 hsorted
  obtain ⟨hafter, hrest⟩ := List.pairwise_cons.1 htail
  have hself : .declared name v.type v.isParameter v.declaration ∈
      events file (sourceAt lines start first) := by simp [hsplit]
  refine ⟨?_, ?_, ?_, ?_, ?_, ?_⟩
  · exact (declaredAt_iff hfirst htrigger hcache).2 ⟨_, _, _, hself, rfl⟩
  · intro p hp hbefore
    obtain ⟨type, isParameter, l, hm, rfl⟩ := (declaredAt_iff hfirst htrigger hcache).1 hp
    rw [hsplit] at hm
    rcases List.mem_append.1 hm with hm | hm
    · exact hbefore.asymm (hfront _ hm _ List.mem_cons_self)
    · rcases List.mem_cons.1 hm with he | hm
      · injection he with _ _ _ hl
        rw [hl] at hbefore
        exact Position.Before.irrefl _ hbefore
      · exact hlatest.last _ _ _ hm
  · rw [hlatest.references]
    refine List.pairwise_cons.2 ⟨fun l hl => ?_, List.pairwise_map.2 (hrest.filter _)⟩
    obtain ⟨e, he, rfl⟩ := List.mem_map.1 hl
    exact hafter e (List.mem_filter.1 he).1
  · rw [hlatest.references]
    rfl
  · intro l hl
    obtain ⟨e, he, rfl, rfl⟩ := hlatest.exists_event hl
    obtain ⟨number, column, line, hs, hl, hat⟩ := events_shown hfirst htrigger hcache he
    refine ⟨number, column, line, hs.location, hl, hat, ?_⟩
    rw [← String.length_toList]
    exact (List.prefix_iff_eq_take.1 hs.text).symm
  · rintro hdollar number line w hl hat hw rfl hbefore
    have hvariable : isVariable w = true := by simp [isVariable, hdollar]
    obtain ⟨e, he, hn, hloc⟩ := exists_wordEvent file number (codeColumn _ number line)
      none hw hvariable
    have hm : e ∈ events file (sourceAt lines start first) :=
      List.mem_append_right _ (List.mem_flatMap.2
        ⟨_, (mem_code hfirst htrigger hcache).2 ⟨number, line, hl, hat, rfl⟩, he⟩)
    have hposition : v.declaration.span.start.Before e.position := by
      rw [Event.position, hloc]
      exact hbefore
    -- What stands after the declaration is read after it.
    have hm : e ∈ after := by
      rw [hsplit] at hm
      rcases List.mem_append.1 hm with hm | hm
      · exact absurd (hfront _ hm _ List.mem_cons_self) hposition.asymm
      · rcases List.mem_cons.1 hm with rfl | hm
        · exact absurd hposition (Position.Before.irrefl _)
        · exact hm
    rw [hlatest.references, ← hloc]
    exact List.mem_cons_of_mem _ (List.mem_map_of_mem (List.mem_filter.2 ⟨hm, by simpa using hn⟩))

end

end ScriptBlock

namespace ScriptCache

/-- The scripts of a script file: one starts at each header, a line belongs to the last that starts no
later, and the variables of each are recorded exactly. -/
theorem ofText_exact (file text : String) (h : hasEnding ".rs2" file = true) :
    let lines := Text.splitLines text.toList
    let cache := ofText (some file) (some text)
    (cache.blocks.map ScriptBlock.start).Pairwise (· < ·) ∧
    (∀ n : Nat, n ∈ cache.blocks.map ScriptBlock.start ↔
      ∃ line, lines[n]? = some line ∧ LineShape.isTriggerLine line = true) ∧
    (∀ line : Int, (cache.at? line = none ↔ ∀ b ∈ cache.blocks, line < b.start) ∧
      ∀ b, cache.at? line = some b ↔ b ∈ cache.blocks ∧ (b.start : Int) ≤ line ∧
        ∀ c ∈ cache.blocks, (c.start : Int) ≤ line → c.start ≤ b.start) ∧
    ∀ b ∈ cache.blocks, ∀ name v, b.named? name = some v →
      ScriptBlock.Recorded file lines cache b name v := by
  intro lines cache
  have hblocks : cache.blocks = ScriptBlock.ofLines file lines := if_pos h
  have hsorted : cache.blocks.Pairwise fun a b => a.start < b.start := by
    rw [hblocks]
    exact ScriptBlock.ofLines_pairwise file lines
  refine ⟨List.pairwise_map.2 hsorted, fun n => ?_, fun line => ⟨at?_eq_none_iff, fun b =>
    at?_eq_some_iff hsorted⟩, fun b hb name v hv => ?_⟩
  · rw [hblocks]
    simp only [List.mem_map, ScriptBlock.mem_ofLines]
    constructor
    · rintro ⟨_, ⟨start, line, hl, ht, rfl⟩, rfl⟩
      exact ⟨line, hl, ht⟩
    · rintro ⟨line, hl, ht⟩
      exact ⟨_, ⟨n, line, hl, ht, rfl⟩, rfl⟩
  · rw [hblocks] at hb
    obtain ⟨start, line, hl, ht, rfl⟩ := ScriptBlock.mem_ofLines.1 hb
    exact ScriptBlock.recorded_of_named? hl ht hblocks hv

/-- A parameter and the word that mentions it behind another declaration. -/
theorem parameter_mentioned_recorded :
    let cache := ofText (some "a.rs2") (some "[proc,f](int $x)\ndef_int $y = $x;")
    ∃ b ∈ cache.blocks, ∃ v, b.named? "$x" = some v ∧
      v.references = [.at "a.rs2" 0 13 2, .at "a.rs2" 1 13 2] ∧
      ScriptBlock.Recorded "a.rs2" ["[proc,f](int $x)".toList, "def_int $y = $x;".toList] cache b
        "$x" v := by
  intro cache
  obtain ⟨b, hat, hv⟩ := Option.bind_eq_some_iff.1
    (show (cache.at? 1).bind (·.named? "$x") = some ⟨"int", true, .at "a.rs2" 0 13 2,
      [.at "a.rs2" 0 13 2, .at "a.rs2" 1 13 2]⟩ by decide +kernel)
  have hexact := ofText_exact "a.rs2" "[proc,f](int $x)\ndef_int $y = $x;" (by decide)
  have hb : b ∈ cache.blocks := (((hexact.2.2.1 1).2 b).1 hat).1
  exact ⟨b, hb, _, hv, rfl, hexact.2.2.2 b hb _ _ hv⟩

/-- A parameter without a `$` is in the table, but the word that mentions it is not recorded. -/
theorem unmarked_parameter_mention_missed :
    let cache := ofText (some "a.rs2") (some "[proc,f](int x)\nx")
    ∃ b, cache.at? 1 = some b ∧ ∃ v, b.named? "x" = some v ∧
      (Text.splitLines "[proc,f](int x)\nx".toList)[1]? = some "x".toList ∧
      ⟨"x", 0, 0⟩ ∈ b.wordsOn 1 "x".toList ∧ v.declaration.span.start = ⟨0, 13⟩ ∧
      .at "a.rs2" 1 0 1 ∉ v.references := by
  intro cache
  obtain ⟨b, hat, hv⟩ := Option.bind_eq_some_iff.1
    (show (cache.at? 1).bind (·.named? "x") = some ⟨"int", true, .at "a.rs2" 0 13 1,
      [.at "a.rs2" 0 13 1]⟩ by decide +kernel)
  have hstart : b.start = 0 := by
    have hs : (cache.at? 1).map ScriptBlock.start = some 0 := by decide +kernel
    simpa [hat] using hs
  refine ⟨b, hat, _, hv, by decide +kernel, ?_, rfl, by decide⟩
  rw [ScriptBlock.wordsOn, ScriptBlock.codeColumn, if_neg (by omega)]
  decide +kernel

end ScriptCache

end ScriptIndex
