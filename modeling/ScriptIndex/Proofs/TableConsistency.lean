import ScriptIndex.Proofs.TableViews

/-! The symbols of a table and the keys kept for each file agree after every run of its operations.
Clearing a file leaves exactly what the other files contributed. -/
namespace ScriptIndex.SymbolTable
open Std

/-- Agreement of the two maps: a symbol has references, the keys of a file are those of the symbols
that it refers to and declares, and a declaration is among the references. -/
structure Consistent (t : SymbolTable) : Prop where
  referred : ∀ (k : String) (s : Symbol), t.symbols[k]? = some s → s.references ≠ ∅ ∧
    ∀ (f : String) (positions : ExtTreeSet Position), s.references[f]? = some positions →
      positions ≠ ∅
  refers_iff : ∀ f k : String, t.Refers f k ↔ ∃ s, t.symbols[k]? = some s ∧ f ∈ s.references
  declares_iff : ∀ f k : String,
    t.Declares f k ↔ ∃ s, t.symbols[k]? = some s ∧ s.declaredIn f = true
  recorded : ∀ (k : String) (s : Symbol) (l : Location), t.symbols[k]? = some s →
    s.declaration = some l → ∃ (f : String) (positions : ExtTreeSet Position),
      fileKey? l.file = some f ∧ s.references[f]? = some positions ∧ l.span.start ∈ positions

private theorem declaredIn_declarationOf {t : SymbolTable} {f k : String} :
    (∃ s, t.symbols[k]? = some s ∧ s.declaredIn f = true) ↔
      ∃ l, t.declarationOf k = some l ∧ fileKey? l.file = some f := by
  cases h : t.symbols[k]? with
  | none => simp [declarationOf, h]
  | some s => simp [declarationOf, h, Symbol.declaredIn_iff]

namespace Consistent
variable {t : SymbolTable}

theorem refers (h : t.Consistent) {f k : String} : t.Refers f k ↔ f ∈ t.referencesOf k :=
  (h.refers_iff f k).trans mem_referencesOf.symm

private theorem declares (h : t.Consistent) {f k : String} :
    t.Declares f k ↔ ∃ l, t.declarationOf k = some l ∧ fileKey? l.file = some f :=
  (h.declares_iff f k).trans declaredIn_declarationOf

theorem positions_ne (h : t.Consistent) {f k : String} {positions : ExtTreeSet Position}
    (hp : (t.referencesOf k)[f]? = some positions) : positions ≠ ∅ := by
  cases hs : t.symbols[k]? with
  | none => simp [referencesOf, hs] at hp
  | some s =>
    rw [referencesOf_of_some hs] at hp
    exact (h.referred k s hs).2 f positions hp

theorem recordedOf (h : t.Consistent) {k : String} {l : Location} (hl : t.declarationOf k = some l) :
    ∃ (f : String) (positions : ExtTreeSet Position), fileKey? l.file = some f ∧
      (t.referencesOf k)[f]? = some positions ∧ l.span.start ∈ positions := by
  obtain ⟨s, hs, hd⟩ := Option.bind_eq_some_iff.1 hl
  rw [referencesOf_of_some hs]
  exact h.recorded k s l hs hd

/-- Agreement follows from what the two views say. -/
theorem of_views
    (stored : ∀ (k : String) (s : Symbol), t.symbols[k]? = some s → s.references ≠ ∅)
    (positions : ∀ (k f : String) (ps : ExtTreeSet Position),
      (t.referencesOf k)[f]? = some ps → ps ≠ ∅)
    (refers : ∀ f k, t.Refers f k ↔ f ∈ t.referencesOf k)
    (declares : ∀ f k, t.Declares f k ↔
      ∃ l, t.declarationOf k = some l ∧ fileKey? l.file = some f)
    (recorded : ∀ (k : String) (l : Location), t.declarationOf k = some l →
      ∃ (f : String) (ps : ExtTreeSet Position), fileKey? l.file = some f ∧
        (t.referencesOf k)[f]? = some ps ∧ l.span.start ∈ ps) : t.Consistent where
  referred k s hs := by
    refine ⟨stored k s hs, fun f ps hp => positions k f ps ?_⟩
    rwa [referencesOf_of_some hs]
  refers_iff f k := (refers f k).trans mem_referencesOf
  declares_iff f k := (declares f k).trans declaredIn_declarationOf.symm
  recorded k s l hs hl := by
    rw [← referencesOf_of_some hs]
    exact recorded k l ((declarationOf_of_some hs).trans hl)

theorem empty : ({} : SymbolTable).Consistent := by
  apply of_views <;> simp [referencesOf, declarationOf, Refers, Declares]

end Consistent

private theorem addPosition_ne (file : String) (p : Position) (r : References) :
    addPosition file p r ≠ ∅ := by
  intro he
  have hm : file ∈ addPosition file p r := mem_addPosition.2 (.inl rfl)
  simp [he] at hm

private theorem positions_addPosition {file f : String} {p : Position} {r : References}
    {ps : ExtTreeSet Position} (hr : ∀ ps, r[f]? = some ps → ps ≠ ∅)
    (hp : (addPosition file p r)[f]? = some ps) : ps ≠ ∅ := by
  rw [getElem?_addPosition] at hp
  split at hp
  · cases hp
    intro he
    have hm : p ∈ (r[f]?.getD ∅).insert p := ExtTreeSet.mem_insert_self
    simp [he] at hm
  · exact hr ps hp

private theorem position_kept (file : String) (p : Position) {f : String} {q : Position}
    {r : References} {ps : ExtTreeSet Position} (hp : r[f]? = some ps) (hq : q ∈ ps) :
    ∃ ps, (addPosition file p r)[f]? = some ps ∧ q ∈ ps := by
  rw [getElem?_addPosition]
  split
  · exact ⟨_, rfl, by simp [hp, hq]⟩
  · exact ⟨ps, hp, hq⟩

/-- A symbol that takes over the references of its key gets one more position. The account of who
declares the key and the place of its own declaration are all that is left to show. -/
private theorem consistent_of_recorded {t t' : SymbolTable} (h : t.Consistent) {key file : String}
    {s : Symbol} {p : Position} {id : Option String}
    (hs : t'.symbols = (t.record key file s p id).symbols)
    (hr : s.references = t.referencesOf key)
    (hrefers : ∀ f k, t'.Refers f k ↔ t.Refers f k ∨ file = f ∧ key = k)
    (hdeclares : ∀ f k, t'.Declares f k ↔
      if key = k then ∃ l, s.declaration = some l ∧ fileKey? l.file = some f else t.Declares f k)
    (hplace : ∀ l, s.declaration = some l → ∃ (f : String) (ps : ExtTreeSet Position),
      fileKey? l.file = some f ∧ (addPosition file p s.references)[f]? = some ps ∧
        l.span.start ∈ ps) : t'.Consistent := by
  have hrefs (k : String) : t'.referencesOf k =
      if key = k then addPosition file p s.references else t.referencesOf k := by
    rw [← referencesOf_record, referencesOf, hs]
    rfl
  have hdecl (k : String) : t'.declarationOf k =
      if key = k then s.declaration else t.declarationOf k := by
    rw [← declarationOf_record, declarationOf, hs]
    rfl
  apply Consistent.of_views
  · intro k s' hk
    rw [hs, symbols_record] at hk
    split at hk
    · cases hk
      exact addPosition_ne file p s.references
    · exact (h.referred k s' hk).1
  · intro k f ps hp
    rw [hrefs] at hp
    split at hp
    · refine positions_addPosition (fun ps hp => ?_) hp
      rw [hr] at hp
      exact h.positions_ne hp
    · exact h.positions_ne hp
  · intro f k
    rw [hrefers, hrefs, h.refers]
    by_cases hk : key = k
    · subst hk
      simp [mem_addPosition, hr, or_comm]
    · simp [hk]
  · intro f k
    rw [hdeclares, hdecl, h.declares]
    by_cases hk : key = k <;> simp [hk]
  · intro k l hl
    rw [hdecl] at hl
    rw [hrefs]
    by_cases hk : key = k
    · simp only [hk, if_true] at hl ⊢
      exact hplace l hl
    · simp only [hk, if_false] at hl ⊢
      exact h.recordedOf hl

/-- Recording a position of a symbol with the references and the declaration that its key has. -/
theorem Consistent.record {t : SymbolTable} (h : t.Consistent) {key : String} {s : Symbol}
    (hr : s.references = t.referencesOf key) (hd : s.declaration = t.declarationOf key)
    (file : String) (p : Position) (id : Option String) :
    (t.record key file s p id).Consistent := by
  refine consistent_of_recorded h rfl hr (fun f k => refers_record) ?_ ?_
  · intro f k
    rw [declares_record]
    split
    · rename_i hk
      rw [hd, hk, h.declares]
    · rfl
  · intro l hl
    obtain ⟨f, ps, hf, hp, hm⟩ := h.recordedOf (hd ▸ hl)
    obtain ⟨ps', hp', hm'⟩ := position_kept file p (hr ▸ hp) hm
    exact ⟨f, ps', hf, hp', hm'⟩

/-- Recording a declaration under a key that has none; the references stay. -/
theorem Consistent.recordDeclaration {t : SymbolTable} (h : t.Consistent) {key file : String}
    {s : Symbol} {l : Location} (hr : s.references = t.referencesOf key)
    (hn : t.declarationOf key = none) (hd : s.declaration = some l)
    (hf : fileKey? l.file = some file) :
    (t.recordDeclaration key file s l.span.start).Consistent := by
  refine consistent_of_recorded h (symbols_recordDeclaration t key file s l.span.start) hr
    (fun f k => refers_recordDeclaration) ?_ ?_
  · intro f k
    rw [declares_recordDeclaration]
    split
    · rename_i hk
      subst hk
      rw [h.declares]
      simp [hn, hd, hf]
    · rename_i hk
      simp [hk]
  · intro l' hl
    cases hd.symm.trans hl
    exact ⟨file, _, hf, by rw [getElem?_addPosition, if_pos rfl], ExtTreeSet.mem_insert_self⟩

private theorem erase_absent {r : References} {f : String} (hf : f ∉ r) : r.erase f = r := by
  apply ExtTreeMap.ext_getElem?
  intro g
  rw [ExtTreeMap.getElem?_erase]
  split
  · rename_i he
    have he : f = g := by simpa using he
    rw [← he, ExtTreeMap.getElem?_eq_none hf]
  · rfl

/-- A declaration outside a file keeps its symbol referred to when the file goes. -/
theorem declaredIn_of_erase_empty {t : SymbolTable} (h : t.Consistent) {k f : String}
    {s : Symbol} (hs : t.symbols[k]? = some s) (he : (s.references.erase f).isEmpty) :
    s.declaration = none ∨ s.declaredIn f = true := by
  cases hl : s.declaration with
  | none => exact .inl rfl
  | some l =>
    obtain ⟨g, ps, hg, hp, -⟩ := h.recorded k s l hs hl
    refine .inr ((s.declaredIn_iff f).2 ⟨l, hl, ?_⟩)
    by_cases hgf : f = g
    · rw [hgf, hg]
    · have hm : (s.references.erase f)[g]? = some ps := by
        simp [ExtTreeMap.getElem?_erase, hgf, hp]
      simp [ExtTreeMap.isEmpty_iff.1 he] at hm

/-- A symbol without references in a file is neither declared there nor touched when it goes. -/
private theorem without_of_unreferenced {t : SymbolTable} (h : t.Consistent) {k f : String}
    {s : Symbol} (hs : t.symbols[k]? = some s) (hf : f ∉ s.references) :
    s.declaredIn f = false ∧ s.without f = some s := by
  have hd : s.declaredIn f = false := by
    rw [← Bool.not_eq_true]
    intro hd
    obtain ⟨l, hl, hlf⟩ := (s.declaredIn_iff f).1 hd
    obtain ⟨g, ps, hg, hp, -⟩ := h.recorded k s l hs hl
    cases hg.symm.trans hlf
    exact hf (ExtTreeMap.mem_iff_isSome_getElem?.2 (by simp [hp]))
  refine ⟨hd, ?_⟩
  have hne : s.references.isEmpty = false :=
    ExtTreeMap.isEmpty_eq_false_iff.2 (h.referred k s hs).1
  simp [Symbol.without, erase_absent hf, hne, hd]

/-- The two drops that clearing makes come to taking the file out. -/
private theorem drops_eq_without {f : String} {s : Symbol}
    (hn : (s.references.erase f).isEmpty → s.declaration = none ∨ s.declaredIn f = true) :
    (if s.declaredIn f = true then dropDeclaration (dropReferences f (some s))
      else dropReferences f (some s)) = s.without f := by
  simp only [dropReferences, dropDeclaration, Symbol.without, Option.bind_some]
  generalize s.references.erase f = rest at hn ⊢
  cases he : rest.isEmpty with
  | false =>
    have hne : rest ≠ ∅ := ExtTreeMap.isEmpty_eq_false_iff.1 he
    by_cases hd : s.declaredIn f = true <;> simp [hd, hne]
  | true =>
    rcases hn he with hl | hd
    · have hd : s.declaredIn f = false := by simp [Symbol.declaredIn, hl]
      simp [hl, hd]
    · obtain ⟨l, hl, -⟩ := (s.declaredIn_iff f).1 hd
      simp [hl, hd, ExtTreeMap.isEmpty_iff.1 he]

/-- Clearing a file leaves of each symbol what the other files contributed. -/
theorem Consistent.symbols_clearFile {t : SymbolTable} (h : t.Consistent) {file f : String}
    (hf : fileKey? file = some f) (k : String) :
    (t.clearFile file).symbols[k]? = (t.symbols[k]?).bind (Symbol.without f) := by
  cases he : t.files[f]? with
  | none =>
    have ht : t.clearFile file = t := by simp [clearFile, hf, he]
    rw [ht]
    cases hs : t.symbols[k]? with
    | none => rfl
    | some s =>
      have hm : f ∉ s.references := by
        intro hm
        obtain ⟨entry, he', -⟩ := (h.refers_iff f k).2 ⟨s, hs, hm⟩
        rw [he] at he'
        cases he'
      exact (without_of_unreferenced h hs hm).2.symm
  | some entry =>
    rw [SymbolTable.symbols_clearFile hf he]
    cases hs : t.symbols[k]? with
    | none => simp [dropReferences, dropDeclaration]
    | some s =>
      have hmem : k ∈ entry.referenced ↔ f ∈ s.references := by
        simpa [Refers, he, hs] using h.refers_iff f k
      have hdec : k ∈ entry.declared ↔ s.declaredIn f = true := by
        simpa [Declares, he, hs] using h.declares_iff f k
      by_cases hm : f ∈ s.references
      · simp only [hmem, hdec, hm, if_true, Option.bind_some]
        exact drops_eq_without (declaredIn_of_erase_empty h hs)
      · obtain ⟨hd, hw⟩ := without_of_unreferenced h hs hm
        simp [hmem, hdec, hm, hd, hw]

/-- Clearing a file takes its references from every key. -/
theorem Consistent.referencesOf_clearFile {t : SymbolTable} (h : t.Consistent) {file f : String}
    (hf : fileKey? file = some f) (k : String) :
    (t.clearFile file).referencesOf k = (t.referencesOf k).erase f := by
  unfold referencesOf
  rw [h.symbols_clearFile hf]
  cases hs : t.symbols[k]? with
  | none => simp
  | some s =>
    by_cases he : (s.references.erase f).isEmpty
    · simp [Symbol.without, ExtTreeMap.isEmpty_iff.1 he]
    · simp [Symbol.without, he]

/-- Clearing a file takes away the declarations that lie in it, and no other. -/
theorem Consistent.declarationOf_clearFile {t : SymbolTable} (h : t.Consistent) {file f : String}
    (hf : fileKey? file = some f) (k : String) :
    (t.clearFile file).declarationOf k =
      (t.declarationOf k).filter fun l => fileKey? l.file != some f := by
  unfold declarationOf
  rw [h.symbols_clearFile hf]
  cases hs : t.symbols[k]? with
  | none => rfl
  | some s =>
    have hfilter : (if s.declaredIn f = true then none else s.declaration) =
        s.declaration.filter fun l => fileKey? l.file != some f := by
      cases hl : s.declaration with
      | none => simp
      | some l =>
        by_cases hlf : fileKey? l.file = some f <;> simp [Symbol.declaredIn, Option.filter, hl, hlf]
    simp only [Option.bind_some, ← hfilter]
    by_cases he : (s.references.erase f).isEmpty
    · rcases declaredIn_of_erase_empty h hs he with hn | hd
      · simp [Symbol.without, he, hn]
      · simp [Symbol.without, he, hd]
    · simp [Symbol.without, he]

private theorem refers_clearFile {t : SymbolTable} {file f : String} (hf : fileKey? file = some f)
    {g k : String} : (t.clearFile file).Refers g k ↔ f ≠ g ∧ t.Refers g k := by
  unfold Refers
  rw [files_clearFile hf]
  by_cases hg : f = g <;> simp [hg]

private theorem declares_clearFile {t : SymbolTable} {file f : String} (hf : fileKey? file = some f)
    {g k : String} : (t.clearFile file).Declares g k ↔ f ≠ g ∧ t.Declares g k := by
  unfold Declares
  rw [files_clearFile hf]
  by_cases hg : f = g <;> simp [hg]

theorem Consistent.clearFile {t : SymbolTable} (h : t.Consistent) (file : String) :
    (t.clearFile file).Consistent := by
  cases hf : fileKey? file with
  | none =>
    rw [clearFile_of_no_key hf]
    exact h
  | some f =>
    apply Consistent.of_views
    · intro k s hs
      rw [h.symbols_clearFile hf] at hs
      obtain ⟨s', -, hs⟩ := Option.bind_eq_some_iff.1 hs
      unfold Symbol.without at hs
      split at hs
      · cases hs
      · rename_i he
        cases hs
        exact fun hn => he (ExtTreeMap.isEmpty_iff.2 hn)
    · intro k g ps hp
      rw [h.referencesOf_clearFile hf, ExtTreeMap.getElem?_erase] at hp
      split at hp
      · cases hp
      · exact h.positions_ne hp
    · intro g k
      rw [refers_clearFile hf, h.referencesOf_clearFile hf, h.refers]
      simp
    · intro g k
      rw [declares_clearFile hf, h.declarationOf_clearFile hf, h.declares]
      constructor
      · rintro ⟨hfg, l, hl, hg⟩
        exact ⟨l, by simp [hl, hg, Option.filter, Ne.symm hfg], hg⟩
      · rintro ⟨l, hl, hg⟩
        obtain ⟨hl, hn⟩ := Option.filter_eq_some_iff.1 hl
        refine ⟨?_, l, hl, hg⟩
        rintro rfl
        simp [hg] at hn
    · intro k l hl
      rw [h.declarationOf_clearFile hf] at hl
      obtain ⟨hl, hn⟩ := Option.filter_eq_some_iff.1 hl
      obtain ⟨g, ps, hg, hp, hm⟩ := h.recordedOf hl
      refine ⟨g, ps, hg, ?_, hm⟩
      rw [h.referencesOf_clearFile hf, ExtTreeMap.getElem?_erase, hp]
      have hfg : f ≠ g := by
        rintro rfl
        simp [hg] at hn
      simp [hfg]

theorem Consistent.refer {t : SymbolTable} (h : t.Consistent) (name : String) (role : Role)
    (file : String) (p : Position) (id : Option String) :
    (t.refer name role file p id).Consistent := by
  rcases refer_cases t name role file p id with he | ⟨key, f, s, _, _, hs, he⟩
  · rw [he]
    exact h
  · obtain ⟨hr, hd⟩ := places_of_refer hs
    rw [he]
    exact h.record hr hd f p id

theorem Consistent.declare {t : SymbolTable} (h : t.Consistent) {name : String} {role : Role}
    {location : Location} {excerpt : Excerpt} {r : SymbolTable × Option Symbol}
    (hr : t.declare name role location excerpt = .ok r) : r.1.Consistent := by
  rcases declare_cases hr with ⟨-, rfl⟩ | ⟨_, _, _, _, _, rfl⟩ |
    ⟨key, file, s, _, hf, hn, hs, he, -⟩
  · exact h
  · exact h
  · rw [he]
    exact h.recordDeclaration rfl hn (Symbol.declared_places hs).2.2.1 hf

/-- An operation on a table. -/
inductive Operation where
  | declare (name : String) (role : Role) (location : Location) (excerpt : Excerpt)
  | refer (name : String) (role : Role) (file : String) (p : Position) (packId : Option String)
  | clearFile (file : String)
  | clear

def Operation.steps : Operation → Edit (Option Symbol)
  | .declare name role location excerpt => Edit.declare name role location excerpt
  | .refer name role file p packId => do
    Edit.refer name role file p packId
    return none
  | .clearFile file => do
    modify fun t => t.clearFile file
    return none
  | .clear => do
    set ({} : SymbolTable)
    return none

/-- The table that the steps of an operation leave behind, up to the one that breaks it off, and the
symbol declared, or why there is none. -/
def perform (t : SymbolTable) (op : Operation) : SymbolTable × Except BuildError (Option Symbol) :=
  (t.edit op.steps).swap

def run (t : SymbolTable) (ops : List Operation) : SymbolTable :=
  ops.foldl (fun t op => (t.perform op).1) t

theorem perform_declare (t : SymbolTable) (name : String) (role : Role) (location : Location)
    (excerpt : Excerpt) :
    t.perform (.declare name role location excerpt) =
      match t.declare name role location excerpt with
      | .ok (u, s) => (u, .ok s)
      | .error e => (t, .error e) := by
  rw [perform, Operation.steps, edit_declare]
  cases t.declare name role location excerpt <;> rfl

theorem perform_refer (t : SymbolTable) (name : String) (role : Role) (file : String) (p : Position)
    (packId : Option String) :
    t.perform (.refer name role file p packId) = (t.refer name role file p packId, .ok none) := by
  rw [perform, Operation.steps, edit_bind, edit_refer]
  rfl

theorem perform_clearFile (t : SymbolTable) (file : String) :
    t.perform (.clearFile file) = (t.clearFile file, .ok none) :=
  rfl

theorem perform_clear (t : SymbolTable) : t.perform .clear = ({}, .ok none) :=
  rfl

theorem Consistent.perform {t : SymbolTable} (h : t.Consistent) (op : Operation) :
    (t.perform op).1.Consistent := by
  cases op with
  | declare name role location excerpt =>
    rw [perform_declare]
    cases hr : t.declare name role location excerpt with
    | ok r => exact h.declare hr
    | error e => exact h
  | refer name role file p packId =>
    rw [perform_refer]
    exact h.refer name role file p packId
  | clearFile file => exact h.clearFile file
  | clear => exact .empty

theorem Consistent.run {t : SymbolTable} (h : t.Consistent) (ops : List Operation) :
    (t.run ops).Consistent := by
  induction ops generalizing t with
  | nil => exact h
  | cons op ops ih => exact ih (h.perform op)

private theorem Consistent.declares_unique {t : SymbolTable} (h : t.Consistent) {f g k : String}
    (hf : t.Declares f k) (hg : t.Declares g k) : f = g := by
  obtain ⟨l, hl, hlf⟩ := h.declares.1 hf
  obtain ⟨l', hl', hlg⟩ := h.declares.1 hg
  cases hl.symm.trans hl'
  exact Option.some.inj (hlf.symm.trans hlg)

/-- Every run from the empty table keeps the two maps in agreement, so that no key is declared in two
files. An operation is broken off only as a declaration whose symbol cannot be built, and the table that
its steps have left behind by then is exactly the one that they found. -/
theorem run_consistent_failure_inert (ops : List Operation) :
    (run {} ops).Consistent ∧
    (∀ f g k, (run {} ops).Declares f k → (run {} ops).Declares g k → f = g) ∧
    ∀ (t : SymbolTable) (op : Operation) (e : BuildError), (t.perform op).2 = .error e →
      (t.perform op).1 = t ∧ ∃ name role location excerpt,
        op = .declare name role location excerpt ∧
          Symbol.declared name role location (some excerpt) = .error e := by
  have h : (run {} ops).Consistent := Consistent.empty.run ops
  refine ⟨h, fun f g k => h.declares_unique, ?_⟩
  intro t op e he
  cases op with
  | declare name role location excerpt =>
    rw [perform_declare] at he ⊢
    cases hr : t.declare name role location excerpt with
    | ok r =>
      rw [hr] at he
      cases he
    | error e' =>
      rw [hr] at he
      cases he
      exact ⟨rfl, name, role, location, excerpt, rfl, declare_error hr⟩
  | refer name role file p packId =>
    rw [perform_refer] at he
    cases he
  | clearFile file => cases he
  | clear => cases he

/-- A coordinate with two parts only cannot be declared, whatever was recorded before. -/
theorem short_coordinate_inert :
    let t := run {} [.refer "coins" (.reference .obj) "b.rs2" ⟨4, 2⟩ (some "995")]
    let op := Operation.declare "0_1" (.declaration .coordinates) (.at "a.rs2" 0 0 0) ⟨[], 0⟩
    (t.perform op).2 = .error .missingPart ∧ (t.perform op).1 = t := by
  have he : ((run {} [.refer "coins" (.reference .obj) "b.rs2" ⟨4, 2⟩ (some "995")]).perform
      (.declare "0_1" (.declaration .coordinates) (.at "a.rs2" 0 0 0) ⟨[], 0⟩)).2 =
        .error .missingPart := by
    rfl
  exact ⟨he, ((run_consistent_failure_inert []).2.2 _ _ _ he).1⟩

private theorem ne_empty_iff_exists_mem {r : References} : r ≠ ∅ ↔ ∃ g, g ∈ r := by
  rw [ne_eq, ExtTreeMap.eq_empty_iff_forall_not_mem, Classical.not_forall]
  simp only [Classical.not_not]

/-- A symbol is left behind a file exactly if another file refers to it. -/
theorem exists_without_iff {s : Symbol} {f : String} :
    (∃ s', s.without f = some s') ↔ ∃ g ∈ s.references, f ≠ g := by
  have hleft : (∃ s', s.without f = some s') ↔ s.references.erase f ≠ ∅ := by
    unfold Symbol.without
    by_cases he : s.references.erase f = ∅ <;> simp [he]
  rw [hleft, ne_empty_iff_exists_mem]
  simp [ExtTreeMap.mem_erase, and_comm]

theorem without_eq_some {s s' : Symbol} {f : String} (h : s.without f = some s') :
    s' = { s with
      references := s.references.erase f
      declaration := if s.declaredIn f then none else s.declaration } := by
  unfold Symbol.without at h
  split at h
  · cases h
  · exact (Option.some.inj h).symm

/-- Clearing a file keeps a symbol exactly if another file refers to it. A symbol that is kept loses its
references in the file and a declaration there, and nothing else. The keys of the file are gone, those
of the other files stay, and clearing the file again changes nothing. -/
theorem clearFile_exact (ops : List Operation) (file : String) :
    let t := run {} ops
    let u := t.clearFile file
    (∀ key : String, (∃ s, u.symbols[key]? = some s) ↔
      ∃ s, t.symbols[key]? = some s ∧ ∃ g ∈ s.references, fileKey? file ≠ some g) ∧
    (∀ (key : String) (s : Symbol), u.symbols[key]? = some s → ∃ old, t.symbols[key]? = some old ∧
      s = { old with
        references := (fileKey? file).elim old.references old.references.erase
        declaration := if (fileKey? file).any old.declaredIn then none else old.declaration }) ∧
    u.files = (fileKey? file).elim t.files t.files.erase ∧
    u.clearFile file = u := by
  intro t u
  have h : t.Consistent := Consistent.empty.run ops
  cases hf : fileKey? file with
  | none =>
    have hu : u = t := clearFile_of_no_key hf
    rw [hu]
    refine ⟨fun key => exists_congr fun s => ⟨fun hs => ⟨hs, ?_⟩, And.left⟩,
      fun key s hs => ⟨s, hs, rfl⟩, rfl, clearFile_of_no_key hf⟩
    obtain ⟨g, hg⟩ := ne_empty_iff_exists_mem.1 (h.referred key s hs).1
    exact ⟨g, hg, nofun⟩
  | some f =>
    refine ⟨fun key => ?_, fun key s hs => ?_, ?_, ?_⟩
    · rw [h.symbols_clearFile hf]
      cases t.symbols[key]? with
      | none => simp
      | some s => simpa using exists_without_iff
    · rw [h.symbols_clearFile hf] at hs
      obtain ⟨old, hold, hs⟩ := Option.bind_eq_some_iff.1 hs
      exact ⟨old, hold, without_eq_some hs⟩
    · apply ExtTreeMap.ext_getElem?
      intro g
      rw [files_clearFile hf]
      simp [ExtTreeMap.getElem?_erase]
    · have hkeys : u.files[f]? = none := by rw [files_clearFile hf, if_pos rfl]
      simp [clearFile, hf, hkeys]

end ScriptIndex.SymbolTable
