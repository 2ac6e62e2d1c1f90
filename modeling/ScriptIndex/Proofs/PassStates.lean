import Mathlib.Data.List.Induction
import ScriptIndex.Proofs.Classification

/-! The states of the index along lines. What comes after a line leaves what the line reads, and lines
that are gone through once more leave what holds on them, as long as they declare the same. -/
namespace ScriptIndex

namespace FileLine

/-- Lines in the order in which files are read: no two files share a key, and the lines of a file come
one after the other. -/
def Ordered (ls : List FileLine) : Prop :=
  ls.Pairwise fun l m => fileKey? l.file = fileKey? m.file → l.number < m.number

private theorem linesFrom_spec (file : String) (lines : List Line) (number : Nat) (rest : List Line)
    (h : lines.drop number = rest) :
    (∀ l ∈ linesFrom file lines number rest h, l.file = file ∧ number ≤ l.number) ∧
      Ordered (linesFrom file lines number rest h) := by
  induction rest generalizing number with
  | nil => exact ⟨fun l hl => absurd hl List.not_mem_nil, List.Pairwise.nil⟩
  | cons text rest ih =>
    obtain ⟨hall, hordered⟩ := ih (number + 1) (by rw [← List.drop_drop, h]; rfl)
    refine ⟨fun l hl => ?_, List.pairwise_cons.2 ⟨fun l hl _ => ?_, hordered⟩⟩
    · rcases List.mem_cons.1 hl with rfl | hl
      · exact ⟨rfl, Nat.le_refl _⟩
      · exact ⟨(hall l hl).1, Nat.le_of_succ_le (hall l hl).2⟩
    · exact (hall l hl).2

theorem file_of_mem_ofFile {file text : String} {l : FileLine} (h : l ∈ ofFile file text) :
    l.file = file :=
  ((linesFrom_spec file _ 0 _ List.drop_zero).1 l h).1

theorem ordered_ofFile (file text : String) : Ordered (ofFile file text) :=
  (linesFrom_spec file _ 0 _ List.drop_zero).2

/-- The lines of files with different keys are in order. -/
theorem ordered_ofFiles {files : List (String × String)}
    (h : (files.map fun f => fileKey? f.1).Nodup) : Ordered (ofFiles files) := by
  refine List.pairwise_flatMap.2 ⟨fun f _ => ordered_ofFile f.1 f.2, ?_⟩
  refine (List.pairwise_map.1 h).imp fun {f g} hne l hl m hm he => ?_
  rw [file_of_mem_ofFile hl, file_of_mem_ofFile hm] at he
  exact absurd he hne

def NotAbove (file : String) (number : Int) (l : FileLine) : Prop :=
  fileKey? l.file = fileKey? file → number ≤ l.number

theorem Ordered.notAbove {A B : List FileLine} {l : FileLine} (h : Ordered (A ++ l :: B)) :
    ∀ m ∈ l :: B, m.NotAbove l.file l.number := by
  obtain ⟨-, h, -⟩ := List.pairwise_append.1 h
  obtain ⟨hl, -⟩ := List.pairwise_cons.1 h
  intro m hm he
  rcases List.mem_cons.1 hm with rfl | hm
  · exact Int.le_refl _
  · have hlt := hl m hm he.symm
    omega

/-- Values that a line lets hold start where no later line lets one hold. -/
private theorem Ordered.not_precedes {A B : List FileLine} {l : FileLine} (h : Ordered (A ++ l :: B))
    {f : String} {n : Int} (hl : l.Precedes f n) : ∀ m ∈ B, ¬ m.Precedes f n := by
  obtain ⟨-, h, -⟩ := List.pairwise_append.1 h
  obtain ⟨hlt, -⟩ := List.pairwise_cons.1 h
  rintro m hm ⟨hf, hn⟩
  have hlt := hlt m hm (hl.1.trans hf.symm)
  have hnumber := hl.2
  omega

private theorem Ordered.not_precedes_before {A B : List FileLine} {l : FileLine} (h : Ordered (A ++ l :: B))
    {f : String} {n : Int} (hl : l.Precedes f n) : ∀ m ∈ A, ¬ m.Precedes f n := by
  obtain ⟨-, -, h⟩ := List.pairwise_append.1 h
  rintro m hm ⟨hf, hn⟩
  have hlt := h m hm l List.mem_cons_self (hf.trans hl.1.symm)
  have hnumber := hl.2
  omega

/-- Two lines with one number in one file are the same line. -/
theorem Ordered.split_unique {ls A B A' B' : List FileLine} {l l' : FileLine} (h : Ordered ls)
    (hls : ls = A ++ l :: B) (hls' : ls = A' ++ l' :: B')
    (hf : fileKey? l.file = fileKey? l'.file) (hn : l.number = l'.number) : A = A' ∧ l = l' := by
  have hback {A B A' B' C : List FileLine} {l l' : FileLine} (h : Ordered (A ++ l :: B))
      (hf : fileKey? l.file = fileKey? l'.file) (hn : l.number = l'.number) (hA : A' = A ++ C)
      (hB : l :: B = C ++ l' :: B') : A = A' ∧ l = l' := by
    cases C with
    | nil =>
      rw [List.append_nil] at hA
      exact ⟨hA.symm, (List.cons.inj hB).1⟩
    | cons m C =>
      obtain ⟨-, h, -⟩ := List.pairwise_append.1 h
      have hmem : l' ∈ B := by rw [(List.cons.inj hB).2]; simp
      have hlt := (List.pairwise_cons.1 h).1 l' hmem hf
      omega
  rcases List.append_eq_append_iff.1 (hls.symm.trans hls') with ⟨C, hA, hB⟩ | ⟨C, hA, hB⟩
  · exact hback (hls ▸ h) hf hn hA hB
  · obtain ⟨hA, hl⟩ := hback (hls' ▸ h) hf.symm hn.symm hA hB
    exact ⟨hA.symm, hl.symm⟩

/-- A line among lines is the one in its place, with those before it and those behind. -/
theorem forall_split_iff {ls : List FileLine} {P : List FileLine → FileLine → Prop} :
    (∀ A l B, ls = A ++ l :: B → P A l) ↔
      ∀ n ∈ List.range ls.length, ∀ l, ls[n]? = some l → P (ls.take n) l := by
  constructor
  · intro h n _ l hl
    refine h (ls.take n) l (ls.drop (n + 1)) ?_
    obtain ⟨hlt, rfl⟩ := List.getElem?_eq_some_iff.1 hl
    rw [List.getElem_cons_drop hlt, List.take_append_drop]
  · intro h A l B hls
    have hA := h A.length (by simp [hls]) l (by simp [hls])
    rwa [hls, List.take_left] at hA

end FileLine

namespace Index

def writes [KeyOrder] (i : Index) : List FileLine → List Entry
  | [] => []
  | l :: ls => i.found l ++ (i.next l).writes ls

theorem after_cons [KeyOrder] (i : Index) (l : FileLine) (ls : List FileLine) :
    i.after (l :: ls) = (i.next l).after ls :=
  rfl

private theorem after_concat [KeyOrder] (i : Index) (ls : List FileLine) (l : FileLine) :
    i.after (ls ++ [l]) = (i.after ls).next l :=
  i.after_append ls [l]

theorem symbols_after [KeyOrder] (i : Index) (ls : List FileLine) :
    (i.after ls).symbols = i.symbols.putAll (i.writes ls) := by
  induction ls generalizing i with
  | nil => rfl
  | cons l ls ih =>
    rw [writes, SymbolTable.putAll_append, ← symbols_next, after_cons]
    exact ih (i.next l)

theorem writes_append [KeyOrder] (i : Index) (ls ms : List FileLine) :
    i.writes (ls ++ ms) = i.writes ls ++ (i.after ls).writes ms := by
  induction ls generalizing i with
  | nil => rfl
  | cons l ls ih => rw [List.cons_append, writes, writes, ih, List.append_assoc, after_cons]

/-- An entry along lines is one that a line makes in the state before it. -/
theorem mem_writes [KeyOrder] {i : Index} {ls : List FileLine} {e : Entry} :
    e ∈ i.writes ls ↔ ∃ A l B, ls = A ++ l :: B ∧ e ∈ (i.after A).found l := by
  induction ls generalizing i with
  | nil => simp [writes]
  | cons l ls ih =>
    rw [writes, List.mem_append, ih]
    constructor
    · rintro (he | ⟨A, m, B, rfl, he⟩)
      · exact ⟨[], l, ls, rfl, he⟩
      · exact ⟨l :: A, m, B, rfl, he⟩
    · rintro ⟨A, m, B, hls, he⟩
      cases A with
      | nil =>
        obtain ⟨rfl, rfl⟩ := List.cons.inj hls
        exact .inl he
      | cons a A =>
        obtain ⟨rfl, rfl⟩ := List.cons.inj hls
        exact .inr ⟨A, m, B, rfl, he⟩

theorem place_of_mem_writes [KeyOrder] {i : Index} {ls : List FileLine} {e : Entry} (h : e ∈ i.writes ls) :
    e.place ∈ ls := by
  obtain ⟨A, l, B, rfl, he⟩ := mem_writes.1 h
  rw [place_of_mem_found he]
  simp

theorem scripts_after [KeyOrder] (i : Index) (ls : List FileLine) : (i.after ls).scripts = i.scripts := by
  induction ls generalizing i with
  | nil => rfl
  | cons l ls ih => rw [after_cons, ih, scripts_next]

/-- An index as indexing and taking out files leave it. -/
structure Tidy (i : Index) : Prop where
  symbols : i.symbols.Tidy
  switches : i.switches.Tidy
  returns : i.returns.Tidy
  sections : i.sections.Tidy

namespace Tidy

theorem clear (i : Index) : i.clear.Tidy :=
  ⟨.empty, .empty, .empty, .empty⟩

private theorem put {i : Index} (h : i.Tidy) (e : Entry) : (i.put e).Tidy := by
  refine ⟨h.symbols.put e, h.switches, ?_, h.sections⟩
  unfold Index.put
  dsimp only
  split
  · exact h.returns.put _ _ _
  · exact h.returns

private theorem next [KeyOrder] {i : Index} (h : i.Tidy) (l : FileLine) : (i.next l).Tidy := by
  have hnote : (i.noteLine l.file l.number l.text).Tidy := by
    refine ⟨?_, ?_, ?_, ?_⟩
    · rw [symbols_noteLine]
      exact h.symbols
    · rw [switches_noteLine]
      exact h.switches.note _ _
    · rw [returns_noteLine]
      exact h.returns
    · rw [sections_noteLine]
      exact h.sections.note _ _
  unfold Index.next
  generalize i.noteLine l.file l.number l.text = j at hnote
  induction i.found l generalizing j with
  | nil => exact hnote
  | cons e es ih => exact ih (j.put e) (hnote.put e)

theorem after [KeyOrder] {i : Index} (h : i.Tidy) (ls : List FileLine) : (i.after ls).Tidy := by
  induction ls generalizing i with
  | nil => exact h
  | cons l ls ih => exact ih (h.next l)

theorem clearFile {i : Index} (h : i.Tidy) (file : String) : (i.clearFile file).Tidy :=
  ⟨h.symbols.clearFile file, h.switches.clearFile file, h.returns.clearFile file,
    h.sections.clearFile file⟩

end Tidy

theorem indexed_after [KeyOrder] {i : Index} (h : i.symbols.Indexed) (ls : List FileLine) :
    (i.after ls).symbols.Indexed := by
  rw [symbols_after]
  exact h.putAll _

structure SameValues (i j : Index) : Prop where
  switches : ∀ f n, i.switches.valueAt f n = j.switches.valueAt f n
  returns : ∀ f n, i.returns.valueAt f n = j.returns.valueAt f n
  sections : ∀ f n, i.sections.valueAt f n = j.sections.valueAt f n

/-- The symbols, the values and the scripts say all there is. -/
theorem Tidy.ext {i j : Index} (hi : i.Tidy) (hj : j.Tidy) (symbols : i.symbols = j.symbols)
    (values : SameValues i j) (scripts : i.scripts = j.scripts) : i = j := by
  have hswitches := hi.switches.ext hj.switches values.switches
  have hreturns := hi.returns.ext hj.returns values.returns
  have hsections := hi.sections.ext hj.sections values.sections
  cases i
  cases j
  simp_all

structure SameUpTo (file : String) (number : Int) (i j : Index) : Prop where
  switches : ∀ f, fileKey? file = some f → ∀ n ≤ number,
    i.switches.valueAt f n = j.switches.valueAt f n
  returns : ∀ f, fileKey? file = some f → ∀ n ≤ number, i.returns.valueAt f n = j.returns.valueAt f n
  sections : ∀ f, fileKey? file = some f → ∀ n ≤ number,
    i.sections.valueAt f n = j.sections.valueAt f n

theorem SameValues.upTo {i j : Index} (h : SameValues i j) (file : String) (number : Int) :
    SameUpTo file number i j :=
  ⟨fun f _ n _ => h.switches f n, fun f _ n _ => h.returns f n, fun f _ n _ => h.sections f n⟩

theorem SameUpTo.trans {file : String} {number : Int} {i j k : Index} (h : SameUpTo file number i j)
    (h' : SameUpTo file number j k) : SameUpTo file number i k :=
  ⟨fun f hf n hn => (h.switches f hf n hn).trans (h'.switches f hf n hn),
    fun f hf n hn => (h.returns f hf n hn).trans (h'.returns f hf n hn),
    fun f hf n hn => (h.sections f hf n hn).trans (h'.sections f hf n hn)⟩

theorem SameUpTo.symm {file : String} {number : Int} {i j : Index} (h : SameUpTo file number i j) :
    SameUpTo file number j i :=
  ⟨fun f hf n hn => (h.switches f hf n hn).symm, fun f hf n hn => (h.returns f hf n hn).symm,
    fun f hf n hn => (h.sections f hf n hn).symm⟩

theorem SameUpTo.sameOn {file : String} {number : Int} {i j : Index} (h : SameUpTo file number i j) :
    SameOn file number i j := by
  cases hf : fileKey? file with
  | none => refine ⟨?_, ?_, ?_⟩ <;> simp [Breakpoints.get?, hf]
  | some f =>
    exact ⟨Breakpoints.get?_congr hf (h.switches f hf), Breakpoints.get?_congr hf (h.returns f hf),
      Breakpoints.get?_congr hf (h.sections f hf)⟩

/-- What a line declares that was not declared before stands on the line. -/
theorem known?_next_cases [KeyOrder] {i : Index} {l : FileLine} {k : String} {s : Symbol}
    (h : (i.next l).symbols.known? k = some s) :
    i.symbols.known? k = some s ∨ ∃ column, s.declaration = some (.at l.file l.number column 0) := by
  rw [symbols_next, SymbolTable.known?_putAll] at h
  rcases Option.or_eq_some_iff.1 h with h | ⟨-, h⟩
  · exact .inl h
  · obtain ⟨e, he, rfl⟩ := Option.map_eq_some_iff.1 h
    refine .inr ⟨e.found.annotations.start, e.declared_declaration.trans ?_⟩
    rw [Entry.location, place_of_mem_found (List.mem_of_find?_eq_some he)]

private theorem below_next [KeyOrder] (i : Index) {l : FileLine} {file : String} {number : Int}
    (h : l.NotAbove file number) : SymbolTable.Below file number i.symbols (i.next l).symbols where
  known k s hs := by
    rw [symbols_next]
    exact known?_mono_putAll _ hs
  above k s hs ha := by
    rcases known?_next_cases hs with hs | ⟨column, hd⟩
    · exact hs
    · obtain ⟨location, hl, hf, hlt⟩ := ha
      cases hd.symm.trans hl
      have hle := h hf
      have hlt : (l.number : Int) < number := hlt
      omega

private theorem below_after [KeyOrder] (i : Index) {ls : List FileLine} {file : String} {number : Int}
    (h : ∀ l ∈ ls, l.NotAbove file number) :
    SymbolTable.Below file number i.symbols (i.after ls).symbols := by
  induction ls generalizing i with
  | nil => exact .refl _
  | cons l ls ih =>
    obtain ⟨hl, h⟩ := List.forall_mem_cons.1 h
    exact (i.below_next hl).trans (ih (i.next l) h)

theorem known?_after [KeyOrder] {i : Index} {ls : List FileLine} {k : String} {s : Symbol}
    (h : i.symbols.known? k = some s) : (i.after ls).symbols.known? k = some s := by
  rw [symbols_after]
  exact known?_mono_putAll _ h

private theorem valueAt_returns_next_self [KeyOrder] (i : Index) (l : FileLine) (f : String) (n : Int) :
    (i.next l).returns.valueAt f n = if l.Precedes f n then
      (resultsOf? (i.next l).symbols.known? (i.found l)).or (i.returns.valueAt f n)
      else i.returns.valueAt f n :=
  valueAt_returns_next (fun _ _ hs => hs) f n

/-- Lines change only the values that start behind them. -/
theorem sameValues_after_of_not_precedes [KeyOrder] {i : Index} {A : List FileLine} {f : String} {n : Int}
    (h : ∀ l ∈ A, ¬ l.Precedes f n) :
    (i.after A).switches.valueAt f n = i.switches.valueAt f n ∧
      (i.after A).returns.valueAt f n = i.returns.valueAt f n ∧
      (i.after A).sections.valueAt f n = i.sections.valueAt f n := by
  induction A generalizing i with
  | nil => exact ⟨rfl, rfl, rfl⟩
  | cons l A ih =>
    obtain ⟨hl, h⟩ := List.forall_mem_cons.1 h
    obtain ⟨hs, hr, hm⟩ := ih (i := i.next l) h
    rw [after_cons]
    refine ⟨hs.trans ?_, hr.trans ?_, hm.trans ?_⟩
    · rw [switches_next, Breakpoints.valueAt_note, if_neg hl]
    · rw [valueAt_returns_next_self, if_neg hl]
    · rw [sections_next, Breakpoints.valueAt_note, if_neg hl]

theorem sameUpTo_after [KeyOrder] (i : Index) {ls : List FileLine} {file : String} {number : Int}
    (h : ∀ l ∈ ls, l.NotAbove file number) : SameUpTo file number (i.after ls) i := by
  have hnot {f : String} (hf : fileKey? file = some f) {n : Int} (hn : n ≤ number) :
      ∀ l ∈ ls, ¬ l.Precedes f n := by
    rintro l hl ⟨hlf, hln⟩
    have hle := h l hl (hlf.trans hf.symm)
    omega
  exact ⟨fun f hf n hn => (sameValues_after_of_not_precedes (hnot hf hn)).1,
    fun f hf n hn => (sameValues_after_of_not_precedes (hnot hf hn)).2.1,
    fun f hf n hn => (sameValues_after_of_not_precedes (hnot hf hn)).2.2⟩

/-- The values behind a line are those that it lets hold, or else those from before. -/
theorem valueAt_after_of_precedes [KeyOrder] {i : Index} {A B : List FileLine} {l : FileLine}
    (hordered : FileLine.Ordered (A ++ l :: B)) (known : String → Option Symbol)
    (hknown : ∀ k x, (i.after (A ++ l :: B)).symbols.known? k = some x → known k = some x)
    {f : String} {n : Int} (hl : l.Precedes f n) :
    (i.after (A ++ l :: B)).switches.valueAt f n =
        (l.switchValue?.filter (· ≠ "")).or (i.switches.valueAt f n) ∧
      (i.after (A ++ l :: B)).returns.valueAt f n =
        (resultsOf? known ((i.after A).found l)).or (i.returns.valueAt f n) ∧
      (i.after (A ++ l :: B)).sections.valueAt f n =
        (l.sectionValue?.filter (· ≠ "")).or (i.sections.valueAt f n) := by
  rw [after_append, after_cons] at hknown ⊢
  obtain ⟨hs, hr, hm⟩ := sameValues_after_of_not_precedes (i := i) (hordered.not_precedes_before hl)
  obtain ⟨hs', hr', hm'⟩ := sameValues_after_of_not_precedes (i := (i.after A).next l)
    (hordered.not_precedes hl)
  refine ⟨hs'.trans ?_, hr'.trans ?_, hm'.trans ?_⟩
  · rw [switches_next, Breakpoints.valueAt_note, if_pos hl, hs]
  · rw [valueAt_returns_next fun k x hx => hknown k x (known?_after hx), if_pos hl, hr]
  · rw [sections_next, Breakpoints.valueAt_note, if_pos hl, hm]

/-- Once lines are gone through, going through the first of them again leaves what holds on them, if
no line has a script with results behind it that it had not before. -/
theorem sameValues_again [KeyOrder] {s : Index} {A B : List FileLine} (hordered : FileLine.Ordered (A ++ B))
    (known : String → Option Symbol)
    (hknown : ∀ k x, ((s.after (A ++ B)).after A).symbols.known? k = some x → known k = some x)
    (hresults : ∀ A' l B', A = A' ++ l :: B' →
      resultsOf? known (((s.after (A ++ B)).after A').found l) = none ∨
        resultsOf? known (((s.after (A ++ B)).after A').found l) =
          resultsOf? known ((s.after A').found l)) :
    SameValues ((s.after (A ++ B)).after A) (s.after (A ++ B)) := by
  -- The induction is on the lines gone through again; what was gone through first stays fixed.
  generalize hC : A ++ B = C at *
  induction A using List.reverseRecOn generalizing B with
  | nil => exact ⟨fun _ _ => rfl, fun _ _ => rfl, fun _ _ => rfl⟩
  | append_singleton A l ih =>
    have hC' : A ++ l :: B = C := by
      rw [← hC]
      simp
    have hknownA (k : String) (x : Symbol) (hx : ((s.after C).after A).symbols.known? k = some x) :
        known k = some x := by
      refine hknown k x ?_
      rw [after_append]
      exact known?_after hx
    have hih := ih hC' hknownA fun A' m B' hA => hresults A' m (B' ++ [l]) (by simp [hA])
    -- The value behind this line was put by it and not changed since.
    have hthen {f : String} {n : Int} (hl : l.Precedes f n) := valueAt_after_of_precedes (i := s)
      (hC' ▸ hordered) known (fun k x hx => hknown k x (known?_after (hC' ▸ hx))) hl
    rw [hC'] at hthen
    rw [after_concat]
    rw [after_concat] at hknown
    refine ⟨fun f n => ?_, fun f n => ?_, fun f n => ?_⟩
    · rw [switches_next, Breakpoints.valueAt_note, hih.switches]
      split
      · rename_i hl
        rw [(hthen hl).1]
        cases l.switchValue?.filter (· ≠ "") <;> rfl
      · rfl
    · rw [valueAt_returns_next hknown, hih.returns]
      split
      · rename_i hl
        rcases hresults A l [] rfl with hr | hr
        · rw [hr, Option.none_or]
        · rw [hr, (hthen hl).2.1]
          cases resultsOf? known ((s.after A).found l) <;> rfl
      · rfl
    · rw [sections_next, Breakpoints.valueAt_note, hih.sections]
      split
      · rename_i hl
        rw [(hthen hl).2.2]
        cases l.sectionValue?.filter (· ≠ "") <;> rfl
      · rfl

/-- Once lines are gone through, going through the first of them again declares nothing new, if every
line declares only what it declared before or what is declared by now. -/
theorem known?_again [KeyOrder] {s : Index} {A B : List FileLine}
    (h : ∀ A' l B', A ++ B = A' ++ l :: B' →
      (∀ k, ((s.after (A ++ B)).after A').symbols.known? k = (s.after (A ++ B)).symbols.known? k) →
      ∀ e ∈ ((s.after (A ++ B)).after A').found l, e.declares = true →
        e ∈ (s.after A').found l ∨
          ∀ k, e.key? = some k → ((s.after (A ++ B)).symbols.known? k).isSome = true)
    (k : String) :
    ((s.after (A ++ B)).after A).symbols.known? k = (s.after (A ++ B)).symbols.known? k := by
  generalize hC : A ++ B = C at *
  induction A using List.reverseRecOn generalizing B k with
  | nil => rfl
  | append_singleton A l ih =>
    have hC' : C = A ++ l :: B := by
      rw [← hC]
      simp
    have hih (k : String) := ih k hC'.symm
    rw [after_concat, symbols_next, SymbolTable.known?_putAll, hih]
    cases hf : (((s.after C).after A).found l).find? (Entry.declaresKey k) with
    | none => simp
    | some e =>
      have hd : e.declares = true ∧ e.key? = some k := by
        simpa [Entry.declaresKey] using List.find?_some hf
      have hsome : ((s.after C).symbols.known? k).isSome = true := by
        rcases h A l B hC' hih e (List.mem_of_find?_eq_some hf) hd.1 with he | hk
        · have hthen : (((s.after A).next l).symbols.known? k).isSome = true := by
            rw [symbols_next]
            exact SymbolTable.known?_isSome_of_mem he (List.find?_some hf)
          obtain ⟨x, hx⟩ := Option.isSome_iff_exists.1 hthen
          rw [hC', after_append, after_cons, known?_after hx]
          rfl
        · exact hk k hd.2
      obtain ⟨x, hx⟩ := Option.isSome_iff_exists.1 hsome
      rw [hx]
      rfl

/-- A line of a second pass that has declared nothing new knows more than the same line of the first,
but not of what stands above it. -/
theorem below_again [KeyOrder] {s : Index} {ls A B : List FileLine} {l : FileLine}
    (hordered : FileLine.Ordered ls) (hls : ls = A ++ l :: B)
    (hknown : ∀ k, ((s.after ls).after A).symbols.known? k = (s.after ls).symbols.known? k) :
    SymbolTable.Below l.file l.number (s.after A).symbols ((s.after ls).after A).symbols := by
  refine SymbolTable.Below.trans ?_ (.of_known?_eq fun k => (hknown k).symm)
  rw [hls, after_append]
  exact below_after _ (hls ▸ hordered).notAbove

/-- Where no two symbols are declared on one line of a file after a second pass, none are before it or
in the midst of it. -/
theorem apart_again [KeyOrder] {s : Index} {ls A B : List FileLine}
    (h : ((s.after ls).after ls).symbols.Apart) (hls : ls = A ++ B) :
    ((s.after ls).after A).symbols.Apart := by
  refine h.of_known fun k x hx => ?_
  have hsecond : (s.after ls).after ls = ((s.after ls).after A).after B := by
    rw [← (s.after ls).after_append, ← hls]
  rw [hsecond]
  exact known?_after hx

end Index

end ScriptIndex
