import ScriptIndex.Proofs.Readings

/-! A file taken out of a table and put in again. The entries that are put in restore the table exactly if
they declare, refer to and describe what the file contributed to it; what other files contribute is left
alone. -/
namespace ScriptIndex

def Symbol.outside (file : String) (s : Symbol) : Symbol :=
  if s.declaredIn file then { s with declaration := none } else s

namespace SymbolTable

def ReferredOutside (t : SymbolTable) (file key : String) : Prop :=
  ∃ g p, g ≠ file ∧ t.Records key g p

def DeclaredOutside (t : SymbolTable) (file key : String) : Prop :=
  ∃ s, t.known? key = some s ∧ s.declaredIn file = false

/-- A declaration in another file is a reference from there. -/
theorem Consistent.referredOutside {t : SymbolTable} (h : t.Consistent) {f k : String}
    (hk : t.DeclaredOutside f k) : t.ReferredOutside f k := by
  obtain ⟨s, hs, hd⟩ := hk
  obtain ⟨s', hs', rfl, hsome⟩ := known?_some hs
  obtain ⟨l, hl⟩ := Option.isSome_iff_exists.1 hsome
  obtain ⟨g, ps, hg, hp, hm⟩ := h.recorded k s' l hs' hl
  refine ⟨g, l.span.start, ?_, ps, by rw [referencesOf_of_some hs']; exact hp, hm⟩
  rintro rfl
  have hdeclared : s'.told.declaredIn g = true := (Symbol.declaredIn_iff _ g).2 ⟨l, hl, hg⟩
  rw [hd] at hdeclared
  cases hdeclared

section
variable {t : SymbolTable} (h : t.Consistent) {file f : String} (hf : fileKey? file = some f)
include h

theorem records_of_referred {k g : String} (hg : g ∈ t.referencesOf k) : ∃ p, t.Records k g p := by
  obtain ⟨ps, hp⟩ := Option.isSome_iff_exists.1 (Std.ExtTreeMap.mem_iff_isSome_getElem?.1 hg)
  by_cases hne : ∃ p, p ∈ ps
  · obtain ⟨p, hm⟩ := hne
    exact ⟨p, ps, hp, hm⟩
  · have hempty : ps = ∅ := Std.ExtTreeSet.eq_empty_iff_forall_not_mem.2 fun p hm => hne ⟨p, hm⟩
    exact absurd hempty (h.positions_ne hp)

theorem referredOutside_iff {k : String} {s : Symbol} (hs : t.symbols[k]? = some s) :
    t.ReferredOutside f k ↔ (s.references.erase f).isEmpty = false := by
  have hrefs := referencesOf_of_some hs
  rw [Std.ExtTreeMap.isEmpty_eq_false_iff]
  constructor
  · rintro ⟨g, p, hg, ps, hp, -⟩ he
    have hm : (s.references.erase f)[g]? = some ps := by
      rw [← hrefs, Std.ExtTreeMap.getElem?_erase, if_neg (by simpa using hg.symm), hp]
    simp [he] at hm
  · intro hne
    by_cases hg : ∃ g, g ∈ s.references.erase f
    · obtain ⟨g, hg⟩ := hg
      obtain ⟨hgf, hg⟩ := Std.ExtTreeMap.mem_erase.1 hg
      obtain ⟨p, hp⟩ := records_of_referred h (hrefs ▸ hg)
      exact ⟨g, p, fun he => by simp [he] at hgf, hp⟩
    · exact absurd (Std.ExtTreeMap.eq_empty_iff_forall_not_mem.2 fun g hm => hg ⟨g, hm⟩) hne

include hf

theorem records_clearFile {k g : String} {p : Position} :
    (t.clearFile file).Records k g p ↔ g ≠ f ∧ t.Records k g p := by
  unfold Records
  rw [h.referencesOf_clearFile hf]
  by_cases hg : f = g
  · simp [hg]
  · simp [Std.ExtTreeMap.getElem?_erase, hg, Ne.symm hg]

/-- Taking a file out keeps the symbols that other files refer to. -/
theorem symbols_clearFile_of_referredOutside {k : String} (hk : t.ReferredOutside f k) :
    ∃ s s', t.symbols[k]? = some s ∧ (t.clearFile file).symbols[k]? = some s' ∧
      s'.told = s.told.outside f ∧ s'.packId = s.packId := by
  cases hs : t.symbols[k]? with
  | none =>
    obtain ⟨g, p, -, ps, hp, -⟩ := hk
    simp [referencesOf, hs] at hp
  | some s =>
    have he := (referredOutside_iff h hs).1 hk
    have hleft : (t.clearFile file).symbols[k]? = some { s with
        references := s.references.erase f
        declaration := if s.declaredIn f then none else s.declaration } := by
      rw [h.symbols_clearFile hf, hs, Option.bind_some, Symbol.without, if_neg (by simp [he])]
    refine ⟨s, _, rfl, hleft, ?_, rfl⟩
    have hdeclared : s.told.declaredIn f = s.declaredIn f := rfl
    unfold Symbol.outside
    rw [hdeclared]
    by_cases hd : s.declaredIn f = true <;> simp [Symbol.told, hd]

private theorem symbols_clearFile_of_not_referredOutside {k : String} (hk : ¬ t.ReferredOutside f k) :
    (t.clearFile file).symbols[k]? = none := by
  rw [h.symbols_clearFile hf]
  cases hs : t.symbols[k]? with
  | none => rfl
  | some s =>
    have he : (s.references.erase f).isEmpty = true := by
      rw [← Bool.not_eq_false]
      exact fun he => hk ((referredOutside_iff h hs).2 he)
    rw [Option.bind_some, Symbol.without, if_pos he]

theorem toldOf_clearFile_of_referredOutside {k : String} (hk : t.ReferredOutside f k) :
    (t.clearFile file).toldOf k = (t.toldOf k).map (Symbol.outside f) := by
  obtain ⟨s, s', hs, hs', htold, -⟩ := symbols_clearFile_of_referredOutside h hf hk
  rw [toldOf, hs', toldOf, hs, Option.map_some, Option.map_some, Option.map_some, htold]

theorem toldOf_clearFile_of_not_referredOutside {k : String} (hk : ¬ t.ReferredOutside f k) :
    (t.clearFile file).toldOf k = none := by
  rw [toldOf, symbols_clearFile_of_not_referredOutside h hf hk]
  rfl

private theorem packIdOf_clearFile_of_referredOutside {k : String} (hk : t.ReferredOutside f k) :
    (t.clearFile file).packIdOf k = t.packIdOf k := by
  obtain ⟨s, s', hs, hs', -, hid⟩ := symbols_clearFile_of_referredOutside h hf hk
  rw [packIdOf, hs', packIdOf, hs, Option.bind_some, Option.bind_some, hid]

private theorem packIdOf_clearFile_of_not_referredOutside {k : String} (hk : ¬ t.ReferredOutside f k) :
    (t.clearFile file).packIdOf k = none := by
  rw [packIdOf, symbols_clearFile_of_not_referredOutside h hf hk]
  rfl

/-- Taking a file out leaves the declarations that stand elsewhere. -/
theorem known?_clearFile (k : String) :
    (t.clearFile file).known? k = (t.known? k).filter fun s => !s.declaredIn f := by
  by_cases hk : t.ReferredOutside f k
  · rw [known?, known?, toldOf_clearFile_of_referredOutside h hf hk]
    cases t.toldOf k with
    | none => rfl
    | some s =>
      cases hd : s.declaredIn f with
      | true =>
        have hout : s.outside f = { s with declaration := none } := if_pos hd
        obtain ⟨l, hl, -⟩ := (s.declaredIn_iff f).1 hd
        simp [hout, Option.filter, hl, hd]
      | false =>
        have hout : s.outside f = s := if_neg (by simp [hd])
        cases hdecl : s.declaration <;> simp [hout, Option.filter, hd, hdecl]
  · rw [known?, toldOf_clearFile_of_not_referredOutside h hf hk]
    cases hs : t.known? k with
    | none => rfl
    | some s =>
      have hd : s.declaredIn f = true := by
        rw [← Bool.not_eq_false]
        exact fun hd => hk (h.referredOutside ⟨s, hs, hd⟩)
      simp [Option.filter, hd]

/-- What another file declares is known as before. -/
theorem known?_clearFile_of_declaredOutside {k : String} (hk : t.DeclaredOutside f k) :
    (t.clearFile file).known? k = t.known? k := by
  obtain ⟨s, hs, hd⟩ := hk
  rw [known?_clearFile h hf, hs]
  simp [Option.filter, hd]

theorem known?_clearFile_of_not_declaredOutside {k : String} (hk : ¬ t.DeclaredOutside f k) :
    (t.clearFile file).known? k = none := by
  rw [known?_clearFile h hf]
  cases hs : t.known? k with
  | none => rfl
  | some s =>
    have hd : s.declaredIn f = true := by
      rw [← Bool.not_eq_false]
      exact fun hd => hk ⟨s, hs, hd⟩
    simp [Option.filter, hd]

end

/-- Whether entries of a file say again what the file contributed to a table. -/
structure RestoredBy (t : SymbolTable) (file : String) (es : List Entry) : Prop where
  /-- What no other file declares is as its first declaration among the entries shows it. -/
  declared : ∀ k, ¬ t.DeclaredOutside file k →
    t.known? k = (es.find? (Entry.declaresKey k)).map fun e => e.declared.told
  /-- The positions in the file are those of references, and of first declarations of what no other file
  declares. -/
  positions : ∀ k p, t.Records k file p ↔
    (∃ e ∈ es, e.declares = false ∧ e.key? = some k ∧ e.position = p) ∨
      (¬ t.DeclaredOutside file k ∧ ∃ e, es.find? (Entry.declaresKey k) = some e ∧ e.position = p)
  /-- The last pack id that is given to a symbol is its pack id. -/
  ids : ∀ k, t.packIdOf k = lastId? k es ∨ t.ReferredOutside file k ∧ lastId? k es = none
  /-- A symbol that is not declared, and that no other file refers to, is as the first entry shows it. -/
  told : ∀ k, t.known? k = none → ¬ t.ReferredOutside file k →
    t.toldOf k = (es.find? fun e => e.key? == some k).map fun e => e.placeholder.told

section
variable {t : SymbolTable} (h : t.Tidy) {file f : String} (hf : fileKey? file = some f)
  {es : List Entry} (hown : ∀ e ∈ es, e.file = f)
include h hf hown

private theorem records_replaced {k g : String} {p : Position} :
    ((t.clearFile file).putAll es).Records k g p ↔ (g ≠ f ∧ t.Records k g p) ∨ g = f ∧
      ((∃ e ∈ es, e.declares = false ∧ e.key? = some k ∧ e.position = p) ∨
        (¬ t.DeclaredOutside f k ∧ ∃ e, es.find? (Entry.declaresKey k) = some e ∧ e.position = p)) := by
  have hnone : (t.clearFile file).known? k = none ↔ ¬ t.DeclaredOutside f k := by
    constructor
    · rintro hk hout
      obtain ⟨s, hs, -⟩ := id hout
      rw [known?_clearFile_of_declaredOutside h.consistent hf hout, hs] at hk
      cases hk
    · exact known?_clearFile_of_not_declaredOutside h.consistent hf
  rw [records_putAll, records_clearFile h.consistent hf, hnone]
  refine or_congr_right ⟨?_, ?_⟩
  · rintro (⟨e, he, hd, hk, hg, hp⟩ | ⟨hn, e, he, hg, hp⟩)
    · exact ⟨hg.symm.trans (hown e he), .inl ⟨e, he, hd, hk, hp⟩⟩
    · exact ⟨hg.symm.trans (hown e (List.mem_of_find?_eq_some he)), .inr ⟨hn, e, he, hp⟩⟩
  · rintro ⟨rfl, ⟨e, he, hd, hk, hp⟩ | ⟨hn, e, he, hp⟩⟩
    · exact .inl ⟨e, he, hd, hk, hown e he, hp⟩
    · exact .inr ⟨hn, e, he, hown e (List.mem_of_find?_eq_some he), hp⟩

private theorem restoredBy_of_eq (he : (t.clearFile file).putAll es = t) : t.RestoredBy f es where
  declared k hk := by
    have hknown := known?_putAll (t.clearFile file) es k
    rwa [he, known?_clearFile_of_not_declaredOutside h.consistent hf hk, Option.none_or] at hknown
  positions k p := by
    have hrecords := records_replaced h hf hown (k := k) (g := f) (p := p)
    rw [he] at hrecords
    simpa using hrecords
  ids k := by
    have hid := packIdOf_putAll (h.clearFile file) es k
    rw [he] at hid
    cases hlast : lastId? k es with
    | some id => exact .inl (by rw [hid, hlast, Option.some_or])
    | none =>
      by_cases hout : t.ReferredOutside f k
      · exact .inr ⟨hout, rfl⟩
      · rw [hlast, packIdOf_clearFile_of_not_referredOutside h.consistent hf hout] at hid
        exact .inl hid
  told k hk hout := by
    have htold := toldOf_putAll (t.clearFile file) es k
    rwa [he, hk, toldOf_clearFile_of_not_referredOutside h.consistent hf hout, Option.none_or,
      Option.none_or] at htold

private theorem RestoredBy.eq (hr : t.RestoredBy f es) : (t.clearFile file).putAll es = t := by
  have hknown (k : String) : ((t.clearFile file).putAll es).known? k = t.known? k := by
    rw [known?_putAll]
    by_cases hk : t.DeclaredOutside f k
    · rw [known?_clearFile_of_declaredOutside h.consistent hf hk]
      obtain ⟨s, hs, -⟩ := hk
      rw [hs, Option.some_or]
    · rw [known?_clearFile_of_not_declaredOutside h.consistent hf hk, Option.none_or, hr.declared k hk]
  refine Tidy.ext ((h.clearFile file).putAll es) h (fun k => ?_) (fun k g p => ?_) fun k => ?_
  · rw [toldOf_putAll, hknown]
    cases hk : t.known? k with
    | some s => exact (Option.filter_eq_some_iff.1 hk).1.symm
    | none =>
      by_cases hout : t.ReferredOutside f k
      · -- An undeclared symbol is told of as before.
        obtain ⟨s, s', hs, hs', htold, -⟩ :=
          symbols_clearFile_of_referredOutside h.consistent hf hout
        have hd : s.told.declaredIn f = false := by
          have hnone : s.declaration = none := declaration_of_known?_none hk hs
          simp [Symbol.declaredIn, Symbol.told, hnone]
        rw [Option.none_or, toldOf, hs', Option.map_some, Option.some_or, htold, Symbol.outside,
          if_neg (by simp [hd]), toldOf, hs, Option.map_some]
      · rw [toldOf_clearFile_of_not_referredOutside h.consistent hf hout, Option.none_or,
          Option.none_or, hr.told k hk hout]
  · rw [records_replaced h hf hown]
    by_cases hg : g = f
    · simp [hg, hr.positions]
    · simp [hg]
  · rw [packIdOf_putAll (h.clearFile file)]
    rcases hr.ids k with hid | ⟨hout, hnone⟩
    · cases hlast : lastId? k es with
      | some id => rw [hid, hlast, Option.some_or]
      | none =>
        rw [hlast] at hid
        rw [hid, Option.none_or]
        by_cases hout : t.ReferredOutside f k
        · rw [packIdOf_clearFile_of_referredOutside h.consistent hf hout, hid]
        · rw [packIdOf_clearFile_of_not_referredOutside h.consistent hf hout]
    · rw [hnone, packIdOf_clearFile_of_referredOutside h.consistent hf hout, Option.none_or]

/-- A file taken out and put in again leaves a table as it was exactly if its entries say again what it
contributed. -/
theorem clearFile_putAll_eq_iff : (t.clearFile file).putAll es = t ↔ t.RestoredBy f es :=
  ⟨restoredBy_of_eq h hf hown, RestoredBy.eq h hf hown⟩

end

end SymbolTable

end ScriptIndex
