import ScriptIndex.Proofs.PassStates

/-! Indexing a file only adds. Symbols and positions stay, a declared symbol stays what it is, and what
is new lies in the file. -/
namespace ScriptIndex

private theorem Symbol.eq_of_told_eq {s s' : Symbol} (h : s'.told = s.told) :
    s' = { s with references := s'.references, packId := s'.packId } := by
  cases s
  cases s'
  simp only [told, Symbol.mk.injEq] at h
  simp [h]

namespace SymbolTable

/-- A table after a file has added to it. -/
structure GrowsIn (file : String) (t u : SymbolTable) : Prop where
  stored : ∀ key : String, key ∈ t.symbols → key ∈ u.symbols
  positions : ∀ key f p, t.Records key f p → u.Records key f p
  declared : ∀ (key : String) (s : Symbol), t.symbols[key]? = some s → s.declaration.isSome = true →
    ∃ s', u.symbols[key]? = some s' ∧
      s' = { s with references := s'.references, packId := s'.packId }
  newPositions : ∀ key f p, u.Records key f p → t.Records key f p ∨ fileKey? file = some f
  newDeclarations : ∀ (key : String) (l : Location), u.declarationOf key = some l →
    t.declarationOf key = some l ∨ l.file = file

private theorem mem_symbols_iff {t : SymbolTable} {key : String} :
    key ∈ t.symbols ↔ (t.toldOf key).isSome = true := by
  rw [Std.ExtTreeMap.mem_iff_isSome_getElem?, toldOf, Option.isSome_map]

namespace GrowsIn
variable {file : String} {t u v : SymbolTable}

private theorem refl (t : SymbolTable) : GrowsIn file t t where
  stored _ h := h
  positions _ _ _ h := h
  declared _ s hs _ := ⟨s, hs, rfl⟩
  newPositions _ _ _ h := .inl h
  newDeclarations _ _ h := .inl h

private theorem trans (h : GrowsIn file t u) (k : GrowsIn file u v) : GrowsIn file t v where
  stored key hk := k.stored key (h.stored key hk)
  positions key f p hp := k.positions key f p (h.positions key f p hp)
  declared key s hs hd := by
    obtain ⟨s', hs', he⟩ := h.declared key s hs hd
    obtain ⟨s'', hs'', he'⟩ := k.declared key s' hs' (by rw [he]; exact hd)
    refine ⟨s'', hs'', ?_⟩
    rw [he'.trans (by rw [he])]
  newPositions key f p hp := (k.newPositions key f p hp).elim (h.newPositions key f p) .inr
  newDeclarations key l hl := (k.newDeclarations key l hl).elim (h.newDeclarations key l) .inr

/-- An entry adds to the file that it stands in. -/
theorem put (t : SymbolTable) {e : Entry} (he : e.place.file = file) : GrowsIn file t (t.put e) where
  stored key hk := by
    rw [mem_symbols_iff] at hk ⊢
    rw [toldOf_put]
    split
    · rfl
    · exact hk
  positions key f p hp := records_put.2 (.inl hp)
  declared key s hs hd := by
    have hknown : t.known? key = some s.told := by
      rw [known?_of_declarationOf (by rwa [declarationOf_of_some hs]), toldOf, hs]
      rfl
    have hput : (t.put e).known? key = some s.told := by
      rw [known?_put, hknown]
      split <;> rfl
    obtain ⟨s', hs', htold, -⟩ := known?_some hput
    exact ⟨s', hs', Symbol.eq_of_told_eq htold⟩
  newPositions key f p hp := by
    refine (records_put.1 hp).imp id ?_
    rintro ⟨-, rfl, -, -⟩
    rw [← he, e.fileKey?_eq]
  newDeclarations key l hl := by
    rw [declarationOf_eq] at hl ⊢
    rw [known?_put] at hl
    split at hl
    · cases hk : t.known? key with
      | none =>
        rw [hk] at hl
        cases e.declared_declaration.symm.trans hl
        exact .inr he
      | some s =>
        rw [hk] at hl
        exact .inl hl
    · exact .inl hl

private theorem putAll (t : SymbolTable) {es : List Entry} (h : ∀ e ∈ es, e.place.file = file) :
    GrowsIn file t (t.putAll es) := by
  induction es generalizing t with
  | nil => exact refl t
  | cons e es ih =>
    obtain ⟨he, h⟩ := List.forall_mem_cons.1 h
    exact (put t he).trans (ih (t.put e) h)

end GrowsIn

end SymbolTable

/-- In every index and for every text, indexing a file succeeds and only adds to the symbols. -/
theorem Index.parse_growsIn [KeyOrder] (i : Index) (file text : String) :
    ∃ j, i.parse file text = .ok j ∧ SymbolTable.GrowsIn file i.symbols j.symbols := by
  refine ⟨_, i.parse_eq file text, ?_⟩
  rw [symbols_after]
  exact .putAll _ fun e he => FileLine.file_of_mem_ofFile (place_of_mem_writes he)

end ScriptIndex
