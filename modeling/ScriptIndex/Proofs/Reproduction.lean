import ScriptIndex.Proofs.EarlierState

/-! A file that is taken out of an index and indexed again. Whether the index comes back shows in the index
itself: it comes back exactly if the lines of the file, each read in the index as it stood before the line,
find all that the file contributes to it. -/
namespace ScriptIndex.Index

/-- The index without the symbols that a file contributes from some line on. What holds on lines may stay,
since nothing that starts further down holds on a line. -/
def before (i : Index) (file : String) (line : Int) : Index :=
  { i with symbols := i.symbols.before file line }

def readings [KeyOrder] (i : Index) (ls : List FileLine) : List Entry :=
  ls.flatMap fun l => (i.before l.file l.number).found l

/-- Whether the lines of a file find, each in the index as it stood before the line, what the file
contributes to the index. -/
structure Reproduces [KeyOrder] (i : Index) (file : String) (ls : List FileLine) : Prop where
  symbols : i.symbols.RestoredBy file (i.readings ls)
  /-- Behind a line the script holds that it declares, if that has results. -/
  returns : ∀ l ∈ ls, i.returns.valueAt file (l.number + 1) =
    resultsOf? i.symbols.known? ((i.before l.file l.number).found l)

/-- Whether what holds in a file starts behind its lines, and switches and sections are those that the
lines name. -/
structure HoldsFrom (i : Index) (file : String) (ls : List FileLine) : Prop where
  behind : ∀ l ∈ ls, ∀ n, l.Precedes file n →
    i.switches.valueAt file n = l.switchValue?.filter (· ≠ "") ∧
      i.sections.valueAt file n = l.sectionValue?.filter (· ≠ "")
  elsewhere : ∀ n, (∀ l ∈ ls, ¬ l.Precedes file n) → i.switches.valueAt file n = none ∧
    i.returns.valueAt file n = none ∧ i.sections.valueAt file n = none

def HoldsNothing (i : Index) (file : String) : Prop :=
  ∀ n, i.switches.valueAt file n = none ∧ i.returns.valueAt file n = none ∧
    i.sections.valueAt file n = none

theorem holdsNothing_clear (i : Index) (f : String) : i.clear.HoldsNothing f :=
  fun n => by simp [clear, Breakpoints.valueAt]

theorem holdsNothing_clearFile (i : Index) {file f : String} (hf : fileKey? file = some f) :
    (i.clearFile file).HoldsNothing f := by
  intro n
  have hnone (b : Breakpoints) : (b.clearFile file).valueAt f n = none := by
    rw [b.valueAt_clearFile hf, if_pos rfl]
  exact ⟨hnone _, hnone _, hnone _⟩

/-- Other files than the one that is taken out and indexed are left alone. -/
theorem sameValues_after_clearFile [KeyOrder] {i : Index} {file f g : String} (hf : fileKey? file = some f)
    {ls : List FileLine} (hfile : ∀ l ∈ ls, l.file = file) (hg : f ≠ g) (n : Int) :
    ((i.clearFile file).after ls).switches.valueAt g n = i.switches.valueAt g n ∧
      ((i.clearFile file).after ls).returns.valueAt g n = i.returns.valueAt g n ∧
      ((i.clearFile file).after ls).sections.valueAt g n = i.sections.valueAt g n := by
  obtain ⟨hs, hreturns, hm⟩ := sameValues_after_of_not_precedes (i := i.clearFile file) (A := ls)
    (f := g) (n := n) fun l hl hp => hg <| Option.some.inj <| by rw [← hf, ← hfile l hl, hp.1]
  have hkept (b : Breakpoints) : (b.clearFile file).valueAt g n = b.valueAt g n := by
    rw [b.valueAt_clearFile hf, if_neg hg]
  exact ⟨hs.trans (hkept _), hreturns.trans (hkept _), hm.trans (hkept _)⟩

/-- Lines that are gone through once or twice leave behind them what they name. -/
theorem holdsFrom_after [KeyOrder] {i : Index} {ls : List FileLine} (hordered : FileLine.Ordered ls)
    {f : String} (h : i.HoldsNothing f ∨ i.HoldsFrom f ls) : (i.after ls).HoldsFrom f ls where
  behind l hl n hp := by
    obtain ⟨A, B, rfl⟩ := List.append_of_mem hl
    obtain ⟨hs, -, hm⟩ := valueAt_after_of_precedes (i := i) hordered _ (fun _ _ hx => hx) hp
    rw [hs, hm]
    rcases h with h | h
    · rw [(h n).1, (h n).2.2, Option.or_none, Option.or_none]
      exact ⟨rfl, rfl⟩
    · obtain ⟨hs, hm⟩ := h.behind l hl n hp
      rw [hs, hm, Option.or_self, Option.or_self]
      exact ⟨rfl, rfl⟩
  elsewhere n hn := by
    obtain ⟨hs, hr, hm⟩ := sameValues_after_of_not_precedes (i := i) hn
    rw [hs, hr, hm]
    exact h.elim (fun h => h n) fun h => h.elsewhere n hn

/-- Entries of lines that find the same, each in its own state, are the same. -/
private theorem writes_eq_flatMap [KeyOrder] {i : Index} {ls : List FileLine}
    {found : FileLine → List Entry}
    (h : ∀ A l B, ls = A ++ l :: B → (i.after A).found l = found l) : i.writes ls = ls.flatMap found := by
  induction ls generalizing i with
  | nil => rfl
  | cons l ls ih =>
    rw [writes, List.flatMap_cons, ih fun A m B hls => h (l :: A) m B (by rw [hls]; rfl)]
    exact congrArg (· ++ _) (h [] l ls rfl)

/-- Going through lines of a file that was taken out lets the switches and sections hold again that held
behind them. -/
theorem HoldsFrom.after_clearFile [KeyOrder] {i : Index} {file f : String} {A B : List FileLine}
    (h : i.HoldsFrom f (A ++ B)) (hf : fileKey? file = some f) (hA : FileLine.Ordered A) {n : Int}
    (hn : ∀ l ∈ B, ¬ l.Precedes f n) :
    ((i.clearFile file).after A).switches.valueAt f n = i.switches.valueAt f n ∧
      ((i.clearFile file).after A).sections.valueAt f n = i.sections.valueAt f n := by
  have hthen := holdsFrom_after hA (.inl (holdsNothing_clearFile i hf))
  by_cases hp : ∃ l ∈ A, l.Precedes f n
  · obtain ⟨l, hl, hp⟩ := hp
    obtain ⟨hs, hm⟩ := hthen.behind l hl n hp
    obtain ⟨hs', hm'⟩ := h.behind l (List.mem_append_left _ hl) n hp
    exact ⟨hs.trans hs'.symm, hm.trans hm'.symm⟩
  · have hnone : ∀ l ∈ A, ¬ l.Precedes f n := fun l hl h => hp ⟨l, hl, h⟩
    obtain ⟨hs, -, hm⟩ := hthen.elsewhere n hnone
    obtain ⟨hs', -, hm'⟩ := h.elsewhere n fun l hl =>
      (List.mem_append.1 hl).elim (hnone l) (hn l)
    exact ⟨hs.trans hs'.symm, hm.trans hm'.symm⟩

private theorem place_of_mem_readings [KeyOrder] {i : Index} {ls : List FileLine} {e : Entry}
    (h : e ∈ i.readings ls) : e.place ∈ ls := by
  obtain ⟨l, hl, he⟩ := List.mem_flatMap.1 h
  rwa [place_of_mem_found he]

section
variable [KeyOrder] {i : Index} (hi : i.Tidy) {file f : String} (hf : fileKey? file = some f)
  {ls : List FileLine} (hordered : FileLine.Ordered ls) (hfile : ∀ l ∈ ls, l.file = file)
include hi hf hordered hfile

omit hi hordered in
private theorem file_of_mem_readings {e : Entry} (he : e ∈ i.readings ls) : e.file = f :=
  Option.some.inj (e.fileKey?_eq.symm.trans (by rw [hfile _ (place_of_mem_readings he), hf]))

/-- A line finds in the index as it stood before the line what it finds while the file is put in, if the
file puts in what the index has. -/
private theorem found_before {A B : List FileLine} {l : FileLine} (hls : ls = A ++ l :: B)
    {above : List Entry} (below : List Entry) (habove : ∀ e ∈ above, e.place ∈ A)
    (hbelow : ∀ e ∈ below, e.place ∈ l :: B)
    (hmade : (i.symbols.clearFile file).putAll (above ++ below) = i.symbols)
    (hthen : ((i.clearFile file).after A).symbols = (i.symbols.clearFile file).putAll above)
    (hs : SameOn l.file l.number i ((i.clearFile file).after A)) :
    (i.before l.file l.number).found l = ((i.clearFile file).after A).found l := by
  have hplace {e : Entry} (he : e.place ∈ ls) : fileKey? e.place.file = some f := by
    rw [hfile _ he, hf]
  have hl : l.file = file := hfile l (by simp [hls])
  have hmadeBy : i.symbols.MadeBy file f l.number above below := by
    refine ⟨hf, hi.symbols, fun e he => ?_, fun e he => ?_, hmade⟩
    · have hm : e.place ∈ ls := by rw [hls]; exact List.mem_append_left _ (habove e he)
      refine ⟨Option.some.inj (e.fileKey?_eq.symm.trans (hplace hm)), ?_⟩
      obtain ⟨-, -, hlt⟩ := List.pairwise_append.1 (show FileLine.Ordered (A ++ l :: B) from hls ▸ hordered)
      have hlt := hlt e.place (habove e he) l List.mem_cons_self (by rw [hplace hm, hl, hf])
      exact Int.ofNat_lt.2 hlt
    · have hm : e.place ∈ ls := by rw [hls]; exact List.mem_append_right _ (hbelow e he)
      refine ⟨Option.some.inj (e.fileKey?_eq.symm.trans (hplace hm)), ?_⟩
      exact (hls ▸ hordered).notAbove e.place (hbelow e he) (by rw [hplace hm, hl, hf])
  obtain ⟨hshows, hshown⟩ := hmadeBy.shows
  rw [hl] at hs ⊢
  have hsymbols : (i.before file l.number).symbols = i.symbols.before file l.number := rfl
  refine found_eq_of_shows ?_ ?_ (Rule.command?_congr fun k => ?_) ?_
  · rw [hl, hthen, hsymbols]
    exact hshows
  · rw [hl, hthen, hsymbols]
    exact hshown
  · rw [hthen, hsymbols]
    exact hmadeBy.alike k
  · rw [hl]
    exact ⟨hs.switches, hs.returns, hs.sections⟩

/-- If taking the file out and indexing it brings the index back, its lines find what it contributes. -/
private theorem reproduces_of_eq (hsaved : (i.clearFile file).after ls = i) : i.Reproduces f ls := by
  have hfound (A : List FileLine) (l : FileLine) (B : List FileLine) (hls : ls = A ++ l :: B) :
      ((i.clearFile file).after A).found l = (i.before l.file l.number).found l := by
    have hthen : i = ((i.clearFile file).after A).after (l :: B) := by
      rw [← after_append, ← hls, hsaved]
    refine (found_before hi hf hordered hfile hls
      (((i.clearFile file).after A).writes (l :: B)) (fun e he => place_of_mem_writes he)
      (fun e he => place_of_mem_writes he) ?_ (symbols_after _ A) ?_).symm
    · have hsymbols := symbols_after (i.clearFile file) ls
      rw [hsaved, hls, writes_append] at hsymbols
      exact hsymbols.symm
    · have hupTo := sameUpTo_after ((i.clearFile file).after A) (hls ▸ hordered).notAbove
      rw [← hthen] at hupTo
      exact hupTo.sameOn
  have hwrites : (i.clearFile file).writes ls = i.readings ls := writes_eq_flatMap hfound
  refine ⟨?_, fun l hl => ?_⟩
  · refine (SymbolTable.clearFile_putAll_eq_iff hi.symbols hf fun e he =>
      file_of_mem_readings hf hfile he).1 ?_
    have hsymbols := symbols_after (i.clearFile file) ls
    rw [hsaved, hwrites] at hsymbols
    exact hsymbols.symm
  · obtain ⟨A, B, hls⟩ := List.append_of_mem hl
    have hp : l.Precedes f (l.number + 1) := ⟨by rw [hfile l hl, hf], rfl⟩
    obtain ⟨-, hreturns, -⟩ := valueAt_after_of_precedes (i := i.clearFile file) (hls ▸ hordered)
      i.symbols.known? (fun k x hx => by rwa [← hls, hsaved] at hx) hp
    rw [← hls, hsaved, (holdsNothing_clearFile i hf _).2.1, Option.or_none, hfound A l B hls] at hreturns
    exact hreturns

variable (hholds : i.HoldsFrom f ls) (hr : i.Reproduces f ls)
include hholds hr

omit hi hfile in
/-- Where the lines of the file have found what they find in the index as it stood before them, the same
holds behind them as in the index. -/
private theorem valueAt_of_found {A B : List FileLine} (hls : ls = A ++ B)
    (hfound : ∀ A' l B', A = A' ++ l :: B' →
      ((i.clearFile file).after A').found l = (i.before l.file l.number).found l)
    (hknown : ∀ k x, ((i.clearFile file).after A).symbols.known? k = some x →
      i.symbols.known? k = some x)
    {n : Int} (hn : ∀ l ∈ B, ¬ l.Precedes f n) :
    ((i.clearFile file).after A).switches.valueAt f n = i.switches.valueAt f n ∧
      ((i.clearFile file).after A).returns.valueAt f n = i.returns.valueAt f n ∧
      ((i.clearFile file).after A).sections.valueAt f n = i.sections.valueAt f n := by
  have hA : FileLine.Ordered A := (List.pairwise_append.1 (hls ▸ hordered)).1
  obtain ⟨hs, hm⟩ := (hls ▸ hholds).after_clearFile hf hA hn
  refine ⟨hs, ?_, hm⟩
  by_cases hp : ∃ l ∈ A, l.Precedes f n
  · obtain ⟨l, hl, hp⟩ := hp
    have hmem : l ∈ ls := by rw [hls]; exact List.mem_append_left _ hl
    obtain ⟨A', B', rfl⟩ := List.append_of_mem hl
    obtain ⟨-, hreturns, -⟩ := valueAt_after_of_precedes hA i.symbols.known? hknown hp
    obtain ⟨-, rfl⟩ := hp
    rw [hreturns, (holdsNothing_clearFile i hf _).2.1, Option.or_none, hfound A' l B' rfl]
    exact (hr.returns l hmem).symm
  · have hnone : ∀ l ∈ A, ¬ l.Precedes f n := fun l hl h => hp ⟨l, hl, h⟩
    have hall : ∀ l ∈ ls, ¬ l.Precedes f n := by
      rw [hls]
      exact fun l hl => (List.mem_append.1 hl).elim (hnone l) (hn l)
    have hthen := holdsFrom_after hA (.inl (holdsNothing_clearFile i hf))
    exact (hthen.elsewhere n hnone).2.1.trans (hholds.elsewhere n hall).2.1.symm

omit hordered hholds in
private theorem putAll_readings : (i.symbols.clearFile file).putAll (i.readings ls) = i.symbols :=
  (SymbolTable.clearFile_putAll_eq_iff hi.symbols hf fun _ he =>
    file_of_mem_readings hf hfile he).2 hr.symbols

omit hordered hholds in
private theorem known?_of_readings {A B : List FileLine} (hls : ls = A ++ B) {k : String} {x : Symbol}
    (hx : ((i.symbols.clearFile file).putAll (i.readings A)).known? k = some x) :
    i.symbols.known? k = some x := by
  have hmade := putAll_readings hi hf hfile hr
  rw [hls, readings, List.flatMap_append, SymbolTable.putAll_append] at hmade
  rw [← hmade]
  exact known?_mono_putAll _ hx

/-- Going through the file, every line finds what it finds in the index as it stood before the line. -/
private theorem found_of_reproduces {A B : List FileLine} {l : FileLine} (hls : ls = A ++ l :: B) :
    ((i.clearFile file).after A).found l = (i.before l.file l.number).found l := by
  induction hn : A.length using Nat.strong_induction_on generalizing A B l with
  | h n ih =>
    have hfound (A' : List FileLine) (m : FileLine) (B' : List FileLine) (hA : A = A' ++ m :: B') :
        ((i.clearFile file).after A').found m = (i.before m.file m.number).found m := by
      refine ih A'.length ?_ (hls.trans (by rw [hA, List.append_assoc]; rfl)) rfl
      rw [← hn, hA]
      simp
    have hthen : ((i.clearFile file).after A).symbols =
        (i.symbols.clearFile file).putAll (i.readings A) := by
      rw [symbols_after, writes_eq_flatMap hfound]
      rfl
    have hknown (k : String) (x : Symbol)
        (hx : ((i.clearFile file).after A).symbols.known? k = some x) :
        i.symbols.known? k = some x := by
      rw [hthen] at hx
      exact known?_of_readings hi hf hfile hr hls hx
    have hl : fileKey? l.file = some f := by rw [hfile l (by simp [hls]), hf]
    have hupTo : SameUpTo l.file l.number ((i.clearFile file).after A) i := by
      have hnot {g : String} (hg : fileKey? l.file = some g) {n : Int} (hn : n ≤ l.number) :
          g = f ∧ ∀ m ∈ l :: B, ¬ m.Precedes f n := by
        refine ⟨Option.some.inj (hg.symm.trans hl), fun m hm hp => ?_⟩
        have hle := (hls ▸ hordered).notAbove m hm (hp.1.trans hl.symm)
        have hnumber := hp.2
        omega
      have hvalues {n : Int} (hn : ∀ m ∈ l :: B, ¬ m.Precedes f n) :=
        valueAt_of_found hf hordered hholds hr hls hfound hknown hn
      refine ⟨fun g hg n hn => ?_, fun g hg n hn => ?_, fun g hg n hn => ?_⟩ <;>
        obtain ⟨rfl, hn⟩ := hnot hg hn
      · exact (hvalues hn).1
      · exact (hvalues hn).2.1
      · exact (hvalues hn).2.2
    refine (found_before hi hf hordered hfile hls (i.readings (l :: B))
      (fun e he => place_of_mem_readings he) (fun e he => place_of_mem_readings he) ?_ hthen
      hupTo.symm.sameOn).symm
    have hmade := putAll_readings hi hf hfile hr
    rwa [hls, readings, List.flatMap_append] at hmade

private theorem eq_of_reproduces : (i.clearFile file).after ls = i := by
  have hfound (A : List FileLine) (l : FileLine) (B : List FileLine) (hls : ls = A ++ l :: B) :=
    found_of_reproduces hi hf hordered hfile hholds hr hls
  have hsymbols : ((i.clearFile file).after ls).symbols = i.symbols := by
    rw [symbols_after, writes_eq_flatMap hfound]
    exact putAll_readings hi hf hfile hr
  refine ((hi.clearFile file).after ls).ext hi hsymbols ?_ (scripts_after _ ls)
  have hvalues (g : String) (n : Int) :
      ((i.clearFile file).after ls).switches.valueAt g n = i.switches.valueAt g n ∧
        ((i.clearFile file).after ls).returns.valueAt g n = i.returns.valueAt g n ∧
        ((i.clearFile file).after ls).sections.valueAt g n = i.sections.valueAt g n := by
    by_cases hg : f = g
    · subst hg
      exact valueAt_of_found hf hordered hholds hr (List.append_nil ls).symm hfound
        (fun k x hx => hsymbols ▸ hx) (by simp)
    · exact sameValues_after_clearFile hf hfile hg n
  exact ⟨fun g n => (hvalues g n).1, fun g n => (hvalues g n).2.1, fun g n => (hvalues g n).2.2⟩

omit hr in
/-- A file that is taken out of an index and indexed again brings the index back exactly if its lines
find, each in the index as it stood before the line, what the file contributes to it. -/
theorem after_clearFile_eq_iff : (i.clearFile file).after ls = i ↔ i.Reproduces f ls :=
  ⟨reproduces_of_eq hi hf hordered hfile, eq_of_reproduces hi hf hordered hfile hholds⟩

end

end ScriptIndex.Index
