import ScriptIndex.Proofs.FileIsolation
import ScriptIndex.Proofs.TableEntries

/-! The values that hold from a line of a file on, seen one by one. Indexing a line lets values hold from
the next line on, and those depend on the text of the line, on what it declares, and on what is known of
the symbols declared there. -/
namespace ScriptIndex

namespace Breakpoints
open Std

def valueAt (b : Breakpoints) (f : String) (line : Int) : Option String :=
  (b.files[f]?).bind (·[line]?)

def Tidy (b : Breakpoints) : Prop :=
  ∀ (f : String) (lines : ExtTreeMap Int String), b.files[f]? = some lines → lines ≠ ∅

theorem valueAt_put (b : Breakpoints) (line : Int) (value file f : String) (n : Int) :
    (b.put line value file).valueAt f n =
      if fileKey? file = some f ∧ value ≠ "" ∧ line = n then some value else b.valueAt f n := by
  unfold put
  split
  · rename_i hf
    simp [hf]
  · rename_i g hf
    by_cases hv : value = ""
    · simp [hv]
    · rw [if_neg hv]
      unfold valueAt
      rw [ExtTreeMap.getElem?_alter]
      by_cases hg : g = f
      · subst hg
        by_cases hl : line = n
        · simp [hf, hv, hl]
        · cases b.files[g]? <;> simp [hl, ExtTreeMap.getElem?_insert]
      · simp [hf, hg]

theorem valueAt_clearFile (b : Breakpoints) {file f : String} (hf : fileKey? file = some f) (g : String)
    (n : Int) : (b.clearFile file).valueAt g n = if f = g then none else b.valueAt g n := by
  unfold clearFile valueAt
  rw [hf, ExtTreeMap.getElem?_erase]
  by_cases hg : f = g <;> simp [hg]

namespace Tidy
variable {b c : Breakpoints}

theorem empty : Tidy {} := by
  intro f lines h
  simp at h

theorem put (h : b.Tidy) (line : Int) (value file : String) : (b.put line value file).Tidy := by
  unfold Breakpoints.put
  split
  · exact h
  · rename_i g _
    split
    · exact h
    · intro f lines hf
      rw [ExtTreeMap.getElem?_alter] at hf
      split at hf
      · cases hf
        intro he
        have hm : line ∈ ((b.files[g]?).getD ∅).insert line value := by simp
        simp [he] at hm
      · exact h f lines hf

theorem clearFile (h : b.Tidy) (file : String) : (b.clearFile file).Tidy := by
  unfold Breakpoints.clearFile
  split
  · exact h
  · intro f lines hf
    rw [ExtTreeMap.getElem?_erase] at hf
    split at hf
    · cases hf
    · exact h f lines hf

/-- The values say all there is. -/
theorem ext (hb : b.Tidy) (hc : c.Tidy) (h : ∀ f n, b.valueAt f n = c.valueAt f n) : b = c := by
  -- A file is kept only with a value.
  have hsub {b c : Breakpoints} (hb : b.Tidy) (h : ∀ f n, b.valueAt f n = c.valueAt f n) {f : String}
      {lines : ExtTreeMap Int String} (hl : b.files[f]? = some lines) :
      ∃ lines', c.files[f]? = some lines' := by
    obtain ⟨n, hn⟩ : ∃ n, n ∈ lines := by
      by_cases hne : ∃ n, n ∈ lines
      · exact hne
      · exact absurd (ExtTreeMap.eq_empty_iff_forall_not_mem.2 fun n hm => hne ⟨n, hm⟩) (hb f lines hl)
    obtain ⟨value, hv⟩ := Option.isSome_iff_exists.1 (ExtTreeMap.mem_iff_isSome_getElem?.1 hn)
    have hc := h f n
    rw [valueAt, hl, Option.bind_some, hv] at hc
    obtain ⟨lines', hl', -⟩ := Option.bind_eq_some_iff.1 hc.symm
    exact ⟨lines', hl'⟩
  have hfiles : b.files = c.files := by
    apply ExtTreeMap.ext_getElem?
    intro f
    cases hl : b.files[f]? with
    | none =>
      cases hl' : c.files[f]? with
      | none => rfl
      | some lines' =>
        obtain ⟨lines, hl⟩ := hsub hc (fun f n => (h f n).symm) hl'
        simp_all
    | some lines =>
      obtain ⟨lines', hl'⟩ := hsub hb h hl
      rw [hl', Option.some.injEq]
      apply ExtTreeMap.ext_getElem?
      intro n
      simpa [valueAt, hl, hl'] using h f n
  cases b
  cases c
  simp_all

end Tidy

private theorem mem_upTo {lines : ExtTreeMap Int String} {n m : Int} :
    m ∈ lines.filter (fun start _ => decide (start ≤ n)) ↔ m ∈ lines ∧ m ≤ n := by
  rw [ExtTreeMap.mem_filter]
  simp

private theorem floor?_eq_some_iff {lines : ExtTreeMap Int String} {n : Int} {value : String} :
    floor? lines n = some value ↔
      ∃ m ≤ n, lines[m]? = some value ∧ ∀ k, m < k → k ≤ n → lines[k]? = none := by
  unfold floor?
  rw [Option.bind_eq_some_iff]
  simp only [ExtTreeMap.maxKey?_eq_some_iff_mem_and_forall, mem_upTo]
  constructor
  · rintro ⟨m, ⟨⟨-, hle⟩, hmax⟩, hvalue⟩
    refine ⟨m, hle, hvalue, ?_⟩
    intro k hlt hk
    by_contra hne
    have hmem : k ∈ lines := ExtTreeMap.mem_iff_isSome_getElem?.2 (Option.isSome_iff_ne_none.2 hne)
    have hkm : k ≤ m := Int.isLE_compare.1 (hmax k ⟨hmem, hk⟩)
    omega
  · rintro ⟨m, hle, hvalue, hnone⟩
    have hmem : m ∈ lines := ExtTreeMap.mem_iff_isSome_getElem?.2 (by simp [hvalue])
    refine ⟨m, ⟨⟨hmem, hle⟩, ?_⟩, hvalue⟩
    rintro k ⟨hk, hkn⟩
    refine Int.isLE_compare.2 (Int.not_lt.1 fun hlt => ?_)
    have hsome := ExtTreeMap.mem_iff_isSome_getElem?.1 hk
    simp [hnone k hlt hkn] at hsome

private theorem floor?_eq_none_iff {lines : ExtTreeMap Int String} {n : Int} :
    floor? lines n = none ↔ ∀ m ≤ n, lines[m]? = none := by
  constructor
  · intro h m hm
    unfold floor? at h
    by_contra hne
    have hmem : m ∈ lines := ExtTreeMap.mem_iff_isSome_getElem?.2 (Option.isSome_iff_ne_none.2 hne)
    cases hmax : (lines.filter fun start _ => decide (start ≤ n)).maxKey? with
    | none =>
      rw [ExtTreeMap.maxKey?_eq_none_iff, ExtTreeMap.eq_empty_iff_forall_not_mem] at hmax
      exact hmax m (mem_upTo.2 ⟨hmem, hm⟩)
    | some k =>
      have hk := (mem_upTo.1 (ExtTreeMap.maxKey?_eq_some_iff_mem_and_forall.1 hmax).1).1
      rw [hmax, Option.bind_some] at h
      simpa [h] using ExtTreeMap.mem_iff_isSome_getElem?.1 hk
  · intro h
    rw [Option.eq_none_iff_forall_ne_some]
    intro value hvalue
    obtain ⟨m, hm, hsome, -⟩ := floor?_eq_some_iff.1 hvalue
    simp [h m hm] at hsome

section
variable {b : Breakpoints} {file f : String} {n : Int} (hf : fileKey? file = some f)
include hf

/-- The value that holds on a line is the one that started last. -/
theorem get?_eq_some_iff {value : String} : b.get? n file = some value ↔
    ∃ m ≤ n, b.valueAt f m = some value ∧ ∀ k, m < k → k ≤ n → b.valueAt f k = none := by
  unfold get? valueAt
  rw [hf, Option.bind_eq_bind, Option.bind_some]
  cases b.files[f]? with
  | none => simp
  | some lines => exact floor?_eq_some_iff

/-- Where no value has started to hold, none does. -/
theorem get?_eq_none_iff : b.get? n file = none ↔ ∀ m ≤ n, b.valueAt f m = none := by
  unfold get? valueAt
  rw [hf, Option.bind_eq_bind, Option.bind_some]
  cases b.files[f]? with
  | none => simp
  | some lines => exact floor?_eq_none_iff

/-- A value that starts to hold on a line holds on it, and so does, if there is none, the one that holds on
the line before. -/
theorem get?_succ : b.get? (n + 1) file = (b.valueAt f (n + 1)).or (b.get? n file) := by
  ext value
  rw [get?_eq_some_iff hf]
  cases hstart : b.valueAt f (n + 1) with
  | none =>
    rw [Option.none_or, get?_eq_some_iff hf]
    constructor
    · rintro ⟨m, hle, hvalue, hnone⟩
      have hne : m ≠ n + 1 := by
        rintro rfl
        simp [hstart] at hvalue
      exact ⟨m, by omega, hvalue, fun k hlt hk => hnone k hlt (by omega)⟩
    · rintro ⟨m, hle, hvalue, hnone⟩
      refine ⟨m, by omega, hvalue, fun k hlt hk => ?_⟩
      rcases Int.lt_or_eq_of_le hk with hk | rfl
      · exact hnone k hlt (by omega)
      · exact hstart
  | some started =>
    rw [Option.some_or]
    constructor
    · rintro ⟨m, hle, hvalue, hnone⟩
      rcases Int.lt_or_eq_of_le hle with hlt | rfl
      · simp [hnone (n + 1) hlt (Int.le_refl _)] at hstart
      · exact hstart.symm.trans hvalue
    · rintro ⟨⟩
      exact ⟨n + 1, Int.le_refl _, hstart, fun k hlt hk => by omega⟩

/-- The value that holds on a line depends on the values from lines up to it. -/
theorem get?_congr {c : Breakpoints} (h : ∀ m ≤ n, b.valueAt f m = c.valueAt f m) :
    b.get? n file = c.get? n file := by
  have hsub {b c : Breakpoints} (h : ∀ m ≤ n, b.valueAt f m = c.valueAt f m) {value : String}
      (hvalue : b.get? n file = some value) : c.get? n file = some value := by
    obtain ⟨m, hm, hstart, hnone⟩ := (get?_eq_some_iff hf).1 hvalue
    refine (get?_eq_some_iff hf).2 ⟨m, hm, (h m hm).symm.trans hstart, ?_⟩
    intro k hlt hk
    exact (h k hk).symm.trans (hnone k hlt hk)
  ext value
  exact ⟨hsub h, hsub fun m hm => (h m hm).symm⟩

end

def note (b : Breakpoints) (l : FileLine) (value : Option String) : Breakpoints :=
  match value with
  | some value => b.put (l.number + 1) value l.file
  | none => b

theorem Tidy.note {b : Breakpoints} (h : b.Tidy) (l : FileLine) (value : Option String) :
    (b.note l value).Tidy := by
  cases value with
  | none => exact h
  | some value => exact h.put _ _ _

end Breakpoints

def FileLine.Precedes (l : FileLine) (f : String) (n : Int) : Prop :=
  fileKey? l.file = some f ∧ (l.number + 1 : Int) = n

instance (l : FileLine) (f : String) (n : Int) : Decidable (l.Precedes f n) :=
  inferInstanceAs (Decidable (_ ∧ _))

namespace Breakpoints

theorem valueAt_note (b : Breakpoints) (l : FileLine) (value : Option String) (f : String) (n : Int) :
    (b.note l value).valueAt f n =
      if l.Precedes f n then (value.filter (· ≠ "")).or (b.valueAt f n) else b.valueAt f n := by
  unfold FileLine.Precedes
  cases value with
  | none => simp [note]
  | some value =>
    rw [note, valueAt_put]
    by_cases hv : value = ""
    · simp [hv, Option.filter]
    · simp [hv, Option.filter]

end Breakpoints

namespace FileLine

def switchValue? (l : FileLine) : Option String :=
  if ScriptCache.hasEnding ".rs2" l.file then
    (Index.switchKeyword? l.text).bind fun keyword =>
      if Category.ofKeyword keyword = .unknown then none else some (Category.ofKeyword keyword).id
  else none

def sectionValue? (l : FileLine) : Option String :=
  if ScriptCache.hasEnding ".jm2" l.file then LineShape.mapSection? l.text else none

end FileLine

namespace Entry

/-- The key that holds from the next line on, by what is known of the symbols: that of a script with
results, behind its header. -/
def resultsOf? (known : String → Option Symbol) (e : Entry) : Option String :=
  if e.declares && ScriptCache.hasEnding ".rs2" e.place.file && LineShape.isTriggerLine e.place.text
  then e.key?.filter fun key => (known key).any fun s => s.signature.any fun s => !s.returns.isEmpty
  else none

theorem resultsOf?_of_not_declares {known : String → Option Symbol} {e : Entry}
    (h : e.declares = false) : e.resultsOf? known = none := by
  simp [resultsOf?, h]

private theorem resultsOf?_ne (known : String → Option Symbol) (e : Entry) :
    e.resultsOf? known ≠ some "" := by
  intro h
  unfold resultsOf? at h
  split at h
  · obtain ⟨hk, -⟩ := Option.filter_eq_some_iff.1 h
    unfold key? Symbol.key? at hk
    split at hk
    · cases hk
    · rename_i hne
      have hl := congrArg String.length (Option.some.inj hk)
      simp only [String.length_append, String.length_empty] at hl
      exact hne (String.length_eq_zero_iff.1 (by omega))
  · cases h

theorem resultsOf?_congr {known : String → Option Symbol} {e e' : Entry}
    (hplace : e.place = e'.place) (hd : e.declares = e'.declares) (hk : e.key? = e'.key?) :
    e.resultsOf? known = e'.resultsOf? known := by
  rw [resultsOf?, resultsOf?, hplace, hd, hk]

/-- What is known of a symbol once it is declared decides about its results. -/
private theorem resultsKey?_eq {t : SymbolTable} {e : Entry} {known : String → Option Symbol}
    (h : ∀ k s, (t.put e).known? k = some s → known k = some s) :
    e.resultsKey? (t.put e) = e.resultsOf? known := by
  unfold resultsKey? resultsOf?
  by_cases hd : e.declares = true
  · cases hk : e.key? with
    | none => simp
    | some k =>
      have hknown := t.known?_put e k
      rw [if_pos (by simp [declaresKey, hd, hk])] at hknown
      obtain ⟨s, hs, hst⟩ := Option.map_eq_some_iff.1 (Option.filter_eq_some_iff.1 hknown).1
      have hsignature : s.told.signature = s.signature := rfl
      simp only [Option.filter, hs, h k _ hknown, ← hst, Option.any_some, hsignature]
  · simp [hd]

end Entry

namespace Index

theorem switches_noteLine (i : Index) (l : FileLine) :
    (i.noteLine l.file l.number l.text).switches = i.switches.note l l.switchValue? := by
  have hswitch : (i.noteSwitch l.file l.number l.text).switches = i.switches.note l
      ((switchKeyword? l.text).bind fun keyword =>
        if Category.ofKeyword keyword = .unknown then none
        else some (Category.ofKeyword keyword).id) := by
    unfold noteSwitch
    cases switchKeyword? l.text with
    | none => rfl
    | some keyword =>
      simp only [Option.bind_some]
      split <;> rfl
  have hsection (i : Index) : (i.noteSection l.file l.number l.text).switches = i.switches := by
    unfold noteSection
    split <;> rfl
  unfold noteLine FileLine.switchValue?
  dsimp only
  split <;> split <;> simp only [hsection, hswitch, Breakpoints.note]

theorem sections_noteLine (i : Index) (l : FileLine) :
    (i.noteLine l.file l.number l.text).sections = i.sections.note l l.sectionValue? := by
  have hswitch : (i.noteSwitch l.file l.number l.text).sections = i.sections := by
    unfold noteSwitch
    split
    · rfl
    · dsimp only
      split <;> rfl
  have hsection (i : Index) : (i.noteSection l.file l.number l.text).sections =
      i.sections.note l (LineShape.mapSection? l.text) := by
    unfold noteSection
    cases LineShape.mapSection? l.text <;> rfl
  unfold noteLine FileLine.sectionValue?
  dsimp only
  split <;> split <;> simp only [hsection, hswitch, Breakpoints.note]

theorem returns_noteLine (i : Index) (l : FileLine) :
    (i.noteLine l.file l.number l.text).returns = i.returns := by
  obtain ⟨switches, sections, h, -, -⟩ := noteLine_cases i l.file l.number l.text
  rw [h]

private theorem scripts_noteLine (i : Index) (l : FileLine) :
    (i.noteLine l.file l.number l.text).scripts = i.scripts := by
  obtain ⟨switches, sections, h, -, -⟩ := noteLine_cases i l.file l.number l.text
  rw [h]

private theorem symbols_foldl_put (i : Index) (es : List Entry) :
    (es.foldl put i).symbols = i.symbols.putAll es := by
  induction es generalizing i with
  | nil => rfl
  | cons e es ih => exact ih (i.put e)

private theorem foldl_put_other (i : Index) (es : List Entry) :
    (es.foldl put i).switches = i.switches ∧ (es.foldl put i).sections = i.sections ∧
      (es.foldl put i).scripts = i.scripts := by
  induction es generalizing i with
  | nil => exact ⟨rfl, rfl, rfl⟩
  | cons e es ih => exact ih (i.put e)

theorem known?_mono_putAll {t : SymbolTable} (es : List Entry) {k : String} {s : Symbol}
    (h : t.known? k = some s) : (t.putAll es).known? k = some s := by
  rw [SymbolTable.known?_putAll, h]
  rfl

private theorem returns_foldl_put {i : Index} {es : List Entry} (known : String → Option Symbol)
    (h : ∀ k s, (i.symbols.putAll es).known? k = some s → known k = some s) :
    (es.foldl put i).returns =
      es.foldl (fun b e => b.note e.place (e.resultsOf? known)) i.returns := by
  induction es generalizing i with
  | nil => rfl
  | cons e es ih =>
    have hreturns : (i.put e).returns = i.returns.note e.place (e.resultsOf? known) := by
      rw [← Entry.resultsKey?_eq fun k s hs => h k s (known?_mono_putAll es hs)]
      rfl
    rw [List.foldl_cons, List.foldl_cons, ← hreturns]
    exact ih (i := i.put e) h

theorem place_of_mem_found [KeyOrder] {i : Index} {l : FileLine} {e : Entry} (h : e ∈ i.found l) :
    e.place = l := by
  obtain ⟨w, -, hw⟩ := List.mem_filterMap.1 h
  obtain ⟨m, -, hm⟩ := Option.bind_eq_some_iff.1 hw
  unfold Entry.of? at hm
  split at hm
  · cases hm
    rfl
  · cases hm

theorem symbols_next [KeyOrder] (i : Index) (l : FileLine) :
    (i.next l).symbols = i.symbols.putAll (i.found l) := by
  rw [next, symbols_foldl_put, symbols_noteLine]

theorem switches_next [KeyOrder] (i : Index) (l : FileLine) :
    (i.next l).switches = i.switches.note l l.switchValue? := by
  rw [next, (foldl_put_other _ _).1, switches_noteLine]

theorem sections_next [KeyOrder] (i : Index) (l : FileLine) :
    (i.next l).sections = i.sections.note l l.sectionValue? := by
  rw [next, (foldl_put_other _ _).2.1, sections_noteLine]

theorem scripts_next [KeyOrder] (i : Index) (l : FileLine) : (i.next l).scripts = i.scripts := by
  rw [next, (foldl_put_other _ _).2.2, scripts_noteLine]

def resultsOf? (known : String → Option Symbol) (es : List Entry) : Option String :=
  (es.filterMap (Entry.resultsOf? known)).getLast?

private theorem valueAt_foldl_note {es : List Entry} {l : FileLine} (h : ∀ e ∈ es, e.place = l)
    (known : String → Option Symbol) (b : Breakpoints) (f : String) (n : Int) :
    (es.foldl (fun b e => b.note e.place (e.resultsOf? known)) b).valueAt f n =
      if l.Precedes f n then (resultsOf? known es).or (b.valueAt f n) else b.valueAt f n := by
  induction es generalizing b with
  | nil => simp [resultsOf?]
  | cons e es ih =>
    obtain ⟨rfl, h⟩ := List.forall_mem_cons.1 h
    rw [List.foldl_cons, ih h, Breakpoints.valueAt_note]
    split
    · unfold resultsOf?
      cases hr : e.resultsOf? known with
      | none => rw [List.filterMap_cons_none hr]; rfl
      | some key =>
        have hne : key ≠ "" := fun he => e.resultsOf?_ne known (by rw [hr, he])
        rw [List.filterMap_cons_some hr, List.getLast?_cons]
        cases (es.filterMap (Entry.resultsOf? known)).getLast? <;> simp [Option.filter, hne]
    · rfl

/-- After a line, the key of its last script with results holds from the next line on. -/
theorem valueAt_returns_next [KeyOrder] {i : Index} {l : FileLine} {known : String → Option Symbol}
    (h : ∀ k s, (i.next l).symbols.known? k = some s → known k = some s) (f : String) (n : Int) :
    (i.next l).returns.valueAt f n = if l.Precedes f n then
      (resultsOf? known (i.found l)).or (i.returns.valueAt f n) else i.returns.valueAt f n := by
  rw [symbols_next] at h
  rw [next, returns_foldl_put known (by rwa [symbols_noteLine]), returns_noteLine]
  exact valueAt_foldl_note (fun e he => place_of_mem_found he) known _ f n

end Index

end ScriptIndex
