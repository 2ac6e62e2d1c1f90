import ScriptIndex.Proofs.DeclaringWords
import ScriptIndex.Proofs.PassStates

/-! Positions that belong to one symbol. Every recorded position lies on the word it was recorded for, so
that two symbols share one only if the two passes take the same word for different things; and that only
the command rule can bring about, as long as no two symbols are declared on one line. -/
namespace ScriptIndex

namespace Index

/-- A word is recorded on one of its own columns. -/
private theorem writtenColumn_covered {m : Match} {line : Line} (hw : m.context.word ∈ Word.ofLine line)
    (hl : Annotations.Layout m.context.word m.annotations) (hne : m.word ≠ "") :
    m.context.word.start ≤ writtenColumn m ∧ writtenColumn m ≤ m.context.word.last := by
  have hlast : m.context.word.last = m.context.word.start + m.context.word.value.toList.length - 1 := by
    rw [String.length_toList]
    rfl
  have hpos := Word.length_pos_of_mem hw
  rw [← String.length_toList] at hpos
  cases hl with
  | completed qualifier hv hs hm =>
    rw [writtenColumn_of_start (referenceColumn_of_modified hm)]
    omega
  | kept front back hv hs hf =>
    have hname : 0 < m.word.toList.length :=
      List.length_pos_iff.2 fun h => hne (String.toList_eq_nil_iff.1 h)
    have hlength := congrArg List.length hv
    simp only [List.length_append] at hlength
    have hword : m.annotations.word = m.word := rfl
    rw [hword] at hlength hv
    have hstart : m.context.word.start ≤ m.annotations.start ∧
        m.annotations.start ≤ m.context.word.last := by omega
    by_cases hc : ':' ∈ m.word.toList
    · by_cases hm : m.annotations.isModified = true
      · rwa [writtenColumn_of_start (referenceColumn_of_modified hm)]
      · have hm : m.annotations.isModified = false := by simpa using hm
        have hform := Word.form_of_mem hw
        obtain ⟨a, b, hab, ha⟩ := List.eq_append_cons_of_mem hc
        rw [hf hm, List.nil_append, hab] at hv
        have hane : a ≠ [] := by
          rintro rfl
          exact hform.head?_ne_colon (by simp [hv])
        -- A word does not end with its colon.
        have hbne : 0 < (b ++ back).length := by
          refine List.length_pos_iff.2 fun h => hform.getLast?_ne_colon ?_
          obtain ⟨rfl, rfl⟩ := List.append_eq_nil_iff.1 h
          simp [hv]
        unfold writtenColumn
        split
        · exact hstart
        · rw [referenceColumn_of_written hm ha hane hab]
          have hlength := congrArg List.length hv
          simp only [List.length_append, List.length_cons] at hlength hbne
          rw [hf hm, List.length_nil] at hs
          omega
    · rwa [writtenColumn_of_start (referenceColumn_of_bare hc)]

/-- Two words of a line are recorded on different columns. -/
theorem word_eq_of_position [KeyOrder] {i j : Index} {l : FileLine} {w w' : Word} {e e' : Entry}
    (hw : w ∈ l.words) (hw' : w' ∈ l.words) (he : i.entryOf? l w = some e)
    (he' : j.entryOf? l w' = some e') (hk : e.key? ≠ none) (hk' : e'.key? ≠ none)
    (hp : e.position = e'.position) : w = w' := by
  have hat {i : Index} {w : Word} {e : Entry} (hw : w ∈ l.words) (he : i.entryOf? l w = some e)
      (hk : e.key? ≠ none) : Word.at? l.words (writtenColumn e.found) = some w := by
    obtain ⟨-, -, hctx, -, ha⟩ := entryOf?_eq_some.1 he
    obtain ⟨a, ha, hae⟩ := Option.map_eq_some_iff.1 ha
    have hword : e.found.context.word = w := by rw [hctx]; rfl
    have hne : e.found.word ≠ "" := by
      intro hne
      exact hk (by rw [Entry.key?, Symbol.key?, if_pos hne])
    have hlayout : Annotations.Layout e.found.context.word e.found.annotations := by
      rw [hword]
      exact (Annotations.layout_of_ofWord? ha).congr (by rw [← hae]) (by rw [← hae]) (by rw [← hae])
    rw [← hword] at hw ⊢
    obtain ⟨hstart, hlast⟩ := writtenColumn_covered hw hlayout hne
    exact Word.at?_ofLine hw hstart hlast
  have hcolumn : writtenColumn e.found = writtenColumn e'.found :=
    Int.ofNat_inj.1 (congrArg Position.column hp)
  have h := hat hw he hk
  rw [hcolumn, hat hw' he' hk'] at h
  exact (Option.some.inj h).symm

/-- A word of a line stands for the same in two indices, or for nothing in the first one and for
something that it does not declare in the second. -/
inductive Gains [KeyOrder] (i j : Index) (l : FileLine) (w : Word) : Prop where
  | same : i.entryOf? l w = j.entryOf? l w → Gains i j l w
  | gained : i.entryOf? l w = none → (∀ e, j.entryOf? l w = some e → e.declares = false) → Gains i j l w

/-- In a second pass over lines the command rule decides of every word as in the first, or it finds a
command in a word that stood for nothing or for a command, and one that it declares was declared there. -/
def CommandsAgree [KeyOrder] (s : Index) (ls : List FileLine) : Prop :=
  ∀ A l B, ls = A ++ l :: B → ∀ w ∈ l.words,
    Rule.command? (l.context w) ((s.after ls).after A) = Rule.command? (l.context w) (s.after A) ∨
      ∃ r, Rule.command? (l.context w) ((s.after ls).after A) = some r ∧
        (∀ e, (s.after A).entryOf? l w = some e → e.found.role.category = .command) ∧
        (r.declares = true → ∃ e, (s.after A).entryOf? l w = some e ∧ e.declares = true)

/-- What a word of a line stands for in one index, it stands for in another one too. There it may refer
to something where it stood for nothing; and it may be taken for a command in one way and in the other. -/
inductive Keeps [KeyOrder] (i j : Index) (l : FileLine) (w : Word) : Prop where
  | gains : Gains i j l w → Keeps i j l w
  | command : (∀ e, i.entryOf? l w = some e → e.found.role.category = .command) →
      (∀ e, j.entryOf? l w = some e → e.found.role.category = .command ∧
        (e.declares = true → ∃ e', i.entryOf? l w = some e' ∧ e'.declares = true)) → Keeps i j l w

/-- A word that stands for something in both indices stands for the same symbol. -/
private theorem Keeps.key?_eq [KeyOrder] {i j : Index} {l : FileLine} {w : Word} (h : Keeps i j l w)
    {e e' : Entry}
    (he : i.entryOf? l w = some e) (he' : j.entryOf? l w = some e') : e.key? = e'.key? := by
  rcases h with (h | ⟨h, -⟩) | ⟨hi, hj⟩
  · rw [h, he'] at he
    rw [Option.some.inj he]
  · rw [h] at he
    cases he
  · rw [key?_of_category_command he (hi e he), key?_of_category_command he' (hj e' he').1]

private theorem category_of_command? [KeyOrder] {i : Index} {l : FileLine} {w : Word} {e : Entry} {r : Role}
    (hc : Rule.command? (l.context w) i = some r) (he : i.entryOf? l w = some e) :
    e.found.role.category = .command := by
  rw [role_of_command? hc he]
  obtain ⟨-, -, hc⟩ := Rule.command?_eq_some hc
  rcases Rules.command_eq_some hc with rfl | ⟨rfl, -⟩ <;> rfl

theorem CommandsAgree.cases [KeyOrder] {s : Index} {ls A B : List FileLine} {l : FileLine}
    (h : s.CommandsAgree ls) (hls : ls = A ++ l :: B) {w : Word} (hw : w ∈ l.words) :
    Rule.command? (l.context w) (s.after A) = Rule.command? (l.context w) ((s.after ls).after A) ∨
      (∀ e, (s.after A).entryOf? l w = some e → e.found.role.category = .command) ∧
        ∀ e, ((s.after ls).after A).entryOf? l w = some e → e.found.role.category = .command ∧
          (e.declares = true → ∃ e', (s.after A).entryOf? l w = some e' ∧ e'.declares = true) := by
  rcases h A l B hls w hw with hc | ⟨r, hc, hfirst, hdeclared⟩
  · exact .inl hc.symm
  · refine .inr ⟨hfirst, fun e he => ⟨category_of_command? hc he, fun hd => hdeclared ?_⟩⟩
    rw [← role_of_command? hc he]
    exact hd

section
variable [KeyOrder] {s : Index} {ls : List FileLine} (hs : s.symbols.Indexed)
  (hordered : FileLine.Ordered ls) (hapart : ((s.after ls).after ls).symbols.Apart) (hagree : s.CommandsAgree ls)
include hs hordered hapart hagree

/-- The second pass declares nothing new. -/
private theorem CommandsAgree.known?_second {A B : List FileLine} (hls : ls = A ++ B) (k : String) :
    ((s.after ls).after A).symbols.known? k = (s.after ls).symbols.known? k := by
  subst hls
  refine known?_again (fun A' l B' hA hknown e he hd => ?_) k
  obtain ⟨w, hw, hew⟩ := List.mem_filterMap.1 he
  rcases hagree.cases hA hw with hc | ⟨hfirst, hsecond⟩
  · have hshows := (below_again hordered hA hknown).shows (indexed_after hs _)
      (indexed_after (indexed_after hs _) _) (apart_again hapart hA)
    exact .inl (List.mem_filterMap.2 ⟨w, hw, entryOf?_declares hshows hc hew hd⟩)
  · -- The command was declared by the same word.
    obtain ⟨hcategory, hdeclared⟩ := hsecond e hew
    obtain ⟨e', he', hd'⟩ := hdeclared hd
    refine .inr fun k hk => ?_
    rw [key?_of_category_command hew hcategory,
      ← key?_of_category_command he' (hfirst e' he')] at hk
    have hthen : (((s.after A').next l).symbols.known? k).isSome = true := by
      rw [symbols_next]
      exact SymbolTable.known?_isSome_of_mem (List.mem_filterMap.2 ⟨w, hw, he'⟩)
        (by simp [Entry.declaresKey, hd', hk])
    obtain ⟨x, hx⟩ := Option.isSome_iff_exists.1 hthen
    rw [hA, after_append, after_cons, known?_after hx]
    rfl

end

/-- A word of which the command rule decides alike stands for the same in the second pass, or only there
for something, if no line above it has a script with results behind it that it had not before. -/
private theorem gains_of_command?_eq [KeyOrder] {s : Index} {ls A B : List FileLine} {l : FileLine}
    {w : Word}
    (hs : s.symbols.Indexed) (hordered : FileLine.Ordered ls)
    (hapart : ((s.after ls).after ls).symbols.Apart) (hls : ls = A ++ l :: B)
    (hknown : ∀ k, ((s.after ls).after A).symbols.known? k = (s.after ls).symbols.known? k)
    (hresults : ∀ A' m B', A = A' ++ m :: B' →
      resultsOf? (s.after ls).symbols.known? (((s.after ls).after A').found m) = none ∨
        resultsOf? (s.after ls).symbols.known? (((s.after ls).after A').found m) =
          resultsOf? (s.after ls).symbols.known? ((s.after A').found m))
    (hc : Rule.command? (l.context w) (s.after A) = Rule.command? (l.context w) ((s.after ls).after A)) :
    Gains (s.after A) ((s.after ls).after A) l w := by
  have hvalues : SameValues ((s.after ls).after A) (s.after ls) := by
    have hagain := sameValues_again (s := s) (A := A) (B := l :: B) (hls ▸ hordered)
      (s.after ls).symbols.known?
    rw [← hls] at hagain
    exact hagain (fun k x hx => by rwa [hknown] at hx) hresults
  have hupTo : SameUpTo l.file l.number (s.after ls) (s.after A) := by
    rw [hls, after_append]
    exact sameUpTo_after _ (hls ▸ hordered).notAbove
  have hshows := (below_again hordered hls hknown).shows (indexed_after hs _)
    (indexed_after (indexed_after hs _) _) (apart_again hapart hls)
  rcases entryOf?_cases hshows hc ((hvalues.upTo l.file l.number).trans hupTo).symm.sameOn with
    hsame | ⟨hnone, hd⟩
  · exact .same hsame
  · exact .gained hnone hd

/-- Where a line declares a command that it then only refers to, no script with results is behind it. -/
private theorem resultsOf?_eq_none [KeyOrder] {i j : Index} {l : FileLine} {w : Word} {e : Entry}
    {known : String → Option Symbol} (he : i.entryOf? l w = some e) (hd : e.declares = true)
    (hc : e.found.role.category = .command)
    (hn : ∀ e', j.entryOf? l w = some e' → e'.declares = false) (hw : w ∈ l.words) :
    resultsOf? known (j.found l) = none := by
  obtain ⟨-, -, -, hr, -⟩ := entryOf?_eq_some.1 he
  rcases Rule.declares_cases hr hd with ⟨hheader, hindex⟩ | ⟨hne, -⟩
  · have hall : (j.found l).filterMap (Entry.resultsOf? known) = [] := by
      refine List.filterMap_eq_nil_iff.2 fun e' he' => Entry.resultsOf?_of_not_declares ?_
      obtain ⟨v, hv, he'⟩ := List.mem_filterMap.1 he'
      obtain ⟨-, -, -, hr', -⟩ := entryOf?_eq_some.1 he'
      rw [← Bool.not_eq_true]
      intro hd'
      rcases Rule.declares_cases hr' hd' with ⟨-, hindex'⟩ | ⟨-, hlocal | hheader'⟩
      · have hwv : v = w := by
          have hat := Word.getElem?_index hw
          rw [hindex, ← hindex', Word.getElem?_index hv] at hat
          exact Option.some.inj hat
        rw [hwv] at he'
        rw [hn e' he'] at hd'
        cases hd'
      · have hcached := e'.cached
        rw [hlocal] at hcached
        cases hcached
      · exact hheader' hheader
    rw [resultsOf?, hall]
    rfl
  · exact absurd hc hne

/-- A line whose words keep what they stand for has the same script with results behind it, or none. -/
private theorem Keeps.resultsOf?_cases [KeyOrder] {i j : Index} {l : FileLine}
    (h : ∀ w ∈ l.words, Keeps i j l w)
    (known : String → Option Symbol) : resultsOf? known (j.found l) = none ∨
      resultsOf? known (j.found l) = resultsOf? known (i.found l) := by
  by_cases hturned : ∃ w ∈ l.words, ∃ e, i.entryOf? l w = some e ∧ e.declares = true ∧
      e.found.role.category = .command ∧ ∀ e', j.entryOf? l w = some e' → e'.declares = false
  · obtain ⟨w, hw, e, he, hd, hc, hn⟩ := hturned
    exact .inl (resultsOf?_eq_none he hd hc hn hw)
  · right
    unfold resultsOf? found
    rw [List.filterMap_filterMap, List.filterMap_filterMap]
    refine congrArg List.getLast? (List.filterMap_congr fun w hw => ?_)
    rcases h w hw with (h | ⟨hn, hd⟩) | ⟨hi, hj⟩
    · rw [h]
    · rw [hn]
      cases hj : j.entryOf? l w with
      | none => rfl
      | some e => exact Entry.resultsOf?_of_not_declares (hd e hj)
    · by_cases hd : ∃ e, j.entryOf? l w = some e ∧ e.declares = true
      · obtain ⟨e, he, hd⟩ := hd
        obtain ⟨hcategory, hdeclared⟩ := hj e he
        obtain ⟨e', he', hd'⟩ := hdeclared hd
        rw [he, he']
        refine Entry.resultsOf?_congr ?_ (hd.trans hd'.symm) ?_
        · exact (entryOf?_eq_some.1 he).2.1.trans (entryOf?_eq_some.1 he').2.1.symm
        · rw [key?_of_category_command he hcategory, key?_of_category_command he' (hi e' he')]
      · -- Neither index declares anything there.
        have hnone {e : Entry} (he : j.entryOf? l w = some e) : e.declares = false := by
          rw [← Bool.not_eq_true]
          exact fun hd' => hd ⟨e, he, hd'⟩
        have hleft : (j.entryOf? l w).bind (Entry.resultsOf? known) = none := by
          cases he : j.entryOf? l w with
          | none => rfl
          | some e => exact Entry.resultsOf?_of_not_declares (hnone he)
        rw [hleft]
        cases he : i.entryOf? l w with
        | none => rfl
        | some e =>
          refine (Entry.resultsOf?_of_not_declares ?_).symm
          rw [← Bool.not_eq_true]
          exact fun hd' => hturned ⟨w, hw, e, he, hd', hi e he, fun e' he' => hnone he'⟩

section
variable [KeyOrder] {s : Index} {ls : List FileLine} (hs : s.symbols.Indexed)
  (hordered : FileLine.Ordered ls) (hapart : ((s.after ls).after ls).symbols.Apart) (hagree : s.CommandsAgree ls)
include hs hordered hapart hagree

/-- What a word stands for in the first pass it stands for in the second. -/
theorem CommandsAgree.keeps {A B : List FileLine} {l : FileLine} (hls : ls = A ++ l :: B) {w : Word}
    (hw : w ∈ l.words) : Keeps (s.after A) ((s.after ls).after A) l w := by
  induction hn : A.length using Nat.strong_induction_on generalizing A B l w with
  | h n ih =>
    rcases hagree.cases hls hw with hc | ⟨hfirst, hsecond⟩
    · refine .gains (gains_of_command?_eq hs hordered hapart hls
        (hagree.known?_second hs hordered hapart hls)
        (fun A' m B' hA => ?_) hc)
      have hls' : ls = A' ++ m :: (B' ++ l :: B) := by rw [hls, hA, List.append_assoc]; rfl
      have hlt : A'.length < n := by rw [← hn, hA]; simp
      exact Keeps.resultsOf?_cases (fun v hv => ih A'.length hlt hls' hv rfl) _
    · exact .command hfirst hsecond

end

/-- Every position that is recorded in two passes is that of a word in one of them. -/
theorem word_of_records [KeyOrder] {s : Index} {ls : List FileLine} (hempty : s.symbols = {}) {k f : String}
    {p : Position} (h : ((s.after ls).after ls).symbols.Records k f p) :
    ∃ A l B w e, ls = A ++ l :: B ∧ w ∈ l.words ∧
      ((s.after A).entryOf? l w = some e ∨ ((s.after ls).after A).entryOf? l w = some e) ∧
      e.key? = some k ∧ e.file = f ∧ e.position = p := by
  rw [symbols_after _ ls, symbols_after s ls, ← SymbolTable.putAll_append, hempty,
    SymbolTable.records_putAll] at h
  have hnot : ¬ ({} : SymbolTable).Records k f p := by
    rintro ⟨positions, hp, -⟩
    simp [SymbolTable.referencesOf] at hp
  have hentry : ∃ e ∈ s.writes ls ++ (s.after ls).writes ls, e.key? = some k ∧ e.file = f ∧
      e.position = p := by
    rcases h with h | ⟨e, he, -, hk, hf, hp⟩ | ⟨-, e, he, hf, hp⟩
    · exact absurd h hnot
    · exact ⟨e, he, hk, hf, hp⟩
    · have hd : e.declares = true ∧ e.key? = some k := by
        simpa [Entry.declaresKey] using List.find?_some he
      exact ⟨e, List.mem_of_find?_eq_some he, hd.2, hf, hp⟩
  obtain ⟨e, he, hk, hf, hp⟩ := hentry
  rcases List.mem_append.1 he with he | he
  · obtain ⟨A, l, B, hls, he⟩ := mem_writes.1 he
    obtain ⟨w, hw, hew⟩ := List.mem_filterMap.1 he
    exact ⟨A, l, B, w, e, hls, hw, .inl hew, hk, hf, hp⟩
  · obtain ⟨A, l, B, hls, he⟩ := mem_writes.1 he
    obtain ⟨w, hw, hew⟩ := List.mem_filterMap.1 he
    exact ⟨A, l, B, w, e, hls, hw, .inr hew, hk, hf, hp⟩

instance [KeyOrder] (s : Index) (ls : List FileLine) : Decidable (s.CommandsAgree ls) :=
  decidable_of_iff (∀ n ∈ List.range ls.length, ∀ l ∈ ls[n]?, ∀ w ∈ l.words,
    (Rule.command? (l.context w) ((s.after ls).after (ls.take n))).map Role.declares =
        (Rule.command? (l.context w) (s.after (ls.take n))).map Role.declares ∨
      ∃ r ∈ Rule.command? (l.context w) ((s.after ls).after (ls.take n)),
        (∀ e ∈ (s.after (ls.take n)).entryOf? l w, e.found.role.category = .command) ∧
        (r.declares = true → ∃ e ∈ (s.after (ls.take n)).entryOf? l w, e.declares = true)) <| by
  simp only [Rule.command?_eq_iff, Option.mem_def]
  unfold CommandsAgree
  rw [FileLine.forall_split_iff]

end Index

instance (t : SymbolTable) (k f : String) (p : Position) : Decidable (t.Records k f p) :=
  decidable_of_iff (∃ positions ∈ (t.referencesOf k)[f]?, p ∈ positions) Iff.rfl

namespace Workspace

/-- After two passes from a cleared index no position belongs to two symbols, as long as the passes agree
on which words are commands, and no two symbols are declared on one line of a file. -/
theorem indexTwice_records_unique [KeyOrder] (i : Index) (files : List (String × String))
    (hkeys : (files.map fun f => fileKey? f.1).Nodup)
    (hagree : i.clear.CommandsAgree (FileLine.ofFiles files))
    (hapart : ∀ j, indexTwice i.clear files = .ok j → j.symbols.Apart) :
    ∃ j, indexTwice i.clear files = .ok j ∧
      ∀ k k' f p, j.symbols.Records k f p → j.symbols.Records k' f p → k = k' := by
  have htwice := indexTwice_eq i.clear files
  refine ⟨_, htwice, fun k k' f p h h' => ?_⟩
  have hordered := FileLine.ordered_ofFiles hkeys
  obtain ⟨A, l, B, w, e, hls, hw, he, hk, hf, hp⟩ := Index.word_of_records rfl h
  obtain ⟨A', l', B', w', e', hls', hw', he', hk', hf', hp'⟩ := Index.word_of_records rfl h'
  -- One position is on one line, and there on one word.
  have hpos : e.position = e'.position := hp.trans hp'.symm
  have hplace : e.place = l := he.elim (fun h => (Index.entryOf?_eq_some.1 h).2.1)
    fun h => (Index.entryOf?_eq_some.1 h).2.1
  have hplace' : e'.place = l' := he'.elim (fun h => (Index.entryOf?_eq_some.1 h).2.1)
    fun h => (Index.entryOf?_eq_some.1 h).2.1
  have hfile : fileKey? l.file = fileKey? l'.file := by
    rw [← hplace, ← hplace', e.fileKey?_eq, e'.fileKey?_eq, hf, hf']
  have hnumber : l.number = l'.number := by
    rw [← hplace, ← hplace']
    exact Int.ofNat_inj.1 (congrArg Position.line hpos)
  obtain ⟨rfl, rfl⟩ := hordered.split_unique hls hls' hfile hnumber
  have hkeeps := hagree.keeps .empty hordered (hapart _ htwice) hls hw
  suffices hsame : e.key? = e'.key? by
    rw [hk, hk'] at hsame
    exact Option.some.inj hsame
  have hword {i j : Index} (he : i.entryOf? l w = some e) (he' : j.entryOf? l w' = some e') : w = w' :=
    Index.word_eq_of_position hw hw' he he' (by simp [hk]) (by simp [hk']) hpos
  rcases he with he | he <;> rcases he' with he' | he'
  · obtain rfl := hword he he'
    rw [Option.some.inj (he.symm.trans he')]
  · obtain rfl := hword he he'
    exact hkeeps.key?_eq he he'
  · obtain rfl := hword he he'
    exact (hkeeps.key?_eq he' he).symm
  · obtain rfl := hword he he'
    rw [Option.some.inj (he.symm.trans he')]

section
attribute [local instance] KeyOrder.ascending

/-- A command that is used before it is declared is found by the second pass alone. -/
theorem indexTwice_records_unique_command_ahead :
    let files := [("a.rs2", "[proc,a]\nmes(coins)"), ("engine.rs2", "[command,mes](obj $o)")]
    (files.map fun f => fileKey? f.1).Nodup ∧
      ({} : Index).clear.CommandsAgree (FileLine.ofFiles files) ∧
      (∀ j, indexTwice ({} : Index).clear files = .ok j → j.symbols.Apart) ∧
      ∃ j, indexTwice ({} : Index).clear files = .ok j ∧
        ∀ k k' f p, j.symbols.Records k f p → j.symbols.Records k' f p → k = k' := by
  intro files
  have hkeys : (files.map fun f => fileKey? f.1).Nodup := by decide +kernel
  have hagree : ({} : Index).clear.CommandsAgree (FileLine.ofFiles files) := by decide +kernel
  have hapart : ∀ j, indexTwice ({} : Index).clear files = .ok j → j.symbols.Apart := by
    intro j hj
    rw [indexTwice_eq] at hj
    obtain rfl := Except.ok.inj hj
    decide +kernel
  exact ⟨hkeys, hagree, hapart, indexTwice_records_unique {} files hkeys hagree hapart⟩

private abbrev growing : KeyOrder where
  walk keys := if keys.size ≤ 2 then keys.toList else keys.toList.reverse
  walk_perm keys := by
    split
    · exact .refl _
    · exact List.reverse_perm _

/-- A header that shares its name with a command that is declared further down declares a script in the
first pass and refers to the command in the second. A column below a line that declares two tables
belongs to one of them in the first pass and to the other in the second, if the first column is enough
to turn the order around in which the keys of the file are walked. -/
theorem header_position_shared :
    let scripts := [("a.rs2", "[proc,x]\n[command,x]")]
    let tables := [("a.dbtable", "[quest-list]\ncolumn=c0,int")]
    ((scripts.map fun f => fileKey? f.1).Nodup ∧
      ¬ ∃ j, indexTwice ({} : Index).clear scripts = .ok j ∧
        ∀ k k' f p, j.symbols.Records k f p → j.symbols.Records k' f p → k = k') ∧
    (tables.map fun f => fileKey? f.1).Nodup ∧
      ∃ _ : KeyOrder, ({} : Index).clear.CommandsAgree (FileLine.ofFiles tables) ∧
        ¬ ∃ j, indexTwice ({} : Index).clear tables = .ok j ∧
          ∀ k k' f p, j.symbols.Records k f p → j.symbols.Records k' f p → k = k' := by
  intro scripts tables
  refine ⟨⟨by decide +kernel, ?_⟩, by decide +kernel, growing, by decide +kernel, ?_⟩
  · rintro ⟨j, hj, hunique⟩
    rw [indexTwice_eq] at hj
    obtain rfl := Except.ok.inj hj
    have hkey := hunique "xPROC" "xCOMMAND" "a.rs2" ⟨0, 6⟩ (by decide +kernel) (by decide +kernel)
    exact absurd hkey (by decide)
  · rintro ⟨j, hj, hunique⟩
    rw [@indexTwice_eq growing] at hj
    obtain rfl := Except.ok.inj hj
    have hkey := hunique "list:c0DBCOLUMN" "quest:c0DBCOLUMN" "a.dbtable" ⟨1, 7⟩
      (by decide +kernel) (by decide +kernel)
    exact absurd hkey (by decide)

end

end Workspace

end ScriptIndex
