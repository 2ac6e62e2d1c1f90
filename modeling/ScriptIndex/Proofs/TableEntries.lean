import ScriptIndex.Proofs.IndexedLines

/-! What a list of entries makes of a table, key by key: what is told of a symbol, where it stands, and
its pack id. The three say all there is to a table, so that the same entries put twice change nothing. -/
namespace ScriptIndex

def Symbol.told (s : Symbol) : Symbol :=
  { s with references := ∅, packId := none }

namespace SymbolTable
open Std

def toldOf (t : SymbolTable) (key : String) : Option Symbol :=
  (t.symbols[key]?).map Symbol.told

def known? (t : SymbolTable) (key : String) : Option Symbol :=
  (t.toldOf key).filter fun s => s.declaration.isSome

def packIdOf (t : SymbolTable) (key : String) : Option String :=
  (t.symbols[key]?).bind Symbol.packId

theorem known?_eq_none_iff {t : SymbolTable} {key : String} :
    t.known? key = none ↔ t.declarationOf key = none := by
  unfold known? toldOf declarationOf
  cases t.symbols[key]? with
  | none => simp
  | some s => cases h : s.declaration <;> simp [Option.filter, Symbol.told, h]

theorem known?_of_declarationOf {t : SymbolTable} {key : String}
    (h : (t.declarationOf key).isSome = true) : t.known? key = t.toldOf key := by
  unfold known? toldOf declarationOf at *
  cases hs : t.symbols[key]? with
  | none => simp
  | some s =>
    rw [hs, Option.bind_some] at h
    simp only [Option.map_some, Option.filter, Symbol.told, h, if_true]

end SymbolTable

def Entry.idFor? (key : String) (e : Entry) : Option String :=
  if e.key? = some key ∧ e.declares = false then SymbolTable.givenId? e.found.annotations.packId
  else none

def Entry.declaresKey (key : String) (e : Entry) : Bool :=
  e.declares && e.key? == some key

namespace SymbolTable

def putAll (t : SymbolTable) (es : List Entry) : SymbolTable :=
  es.foldl put t

/-- An entry leaves the symbols under other keys as they are. -/
private theorem symbols_put_of_ne {e : Entry} {k : String} (t : SymbolTable) (h : e.key? ≠ some k) :
    (t.put e).symbols[k]? = t.symbols[k]? := by
  unfold put
  cases hk : e.key? with
  | none => rfl
  | some key =>
    have hne : ¬key = k := fun he => h (by rw [hk, he])
    dsimp only
    split
    · split
      · rfl
      · rw [symbols_recordDeclaration, symbols_record, if_neg hne]
    · rw [symbols_record, if_neg hne]

theorem toldOf_put (t : SymbolTable) (e : Entry) (k : String) :
    (t.put e).toldOf k = if e.key? = some k then
        some (if e.declares then (t.known? k).getD e.declared.told
          else (t.toldOf k).getD e.placeholder.told)
      else t.toldOf k := by
  split
  · rename_i hk
    simp only [put, hk]
    by_cases hd : e.declares = true
    · simp only [hd, if_true]
      by_cases hs : (t.declarationOf k).isSome = true
      · rw [if_pos hs, known?_of_declarationOf hs]
        cases ht : t.toldOf k with
        | none => rw [← known?_of_declarationOf hs, known?_eq_none_iff] at ht; simp [ht] at hs
        | some s => rfl
      · rw [if_neg hs, known?_eq_none_iff.2 (by simpa using hs)]
        unfold toldOf
        rw [symbols_recordDeclaration, symbols_record, if_pos rfl]
        rfl
    · simp only [hd, Bool.false_eq_true, if_false]
      unfold toldOf
      rw [symbols_record, if_pos rfl]
      cases t.symbols[k]? <;> rfl
  · rename_i hk
    unfold toldOf
    rw [symbols_put_of_ne t hk]

theorem known?_put (t : SymbolTable) (e : Entry) (k : String) :
    (t.put e).known? k =
      if e.declaresKey k = true then some ((t.known? k).getD e.declared.told) else t.known? k := by
  rw [known?, toldOf_put]
  unfold Entry.declaresKey
  by_cases hk : e.key? = some k
  · simp only [hk, if_true, BEq.rfl, Bool.and_true]
    by_cases hd : e.declares = true
    · simp only [hd, if_true]
      cases hs : t.known? k with
      | none => simp [Option.filter, Symbol.told, e.declared_declaration]
      | some s =>
        have hsome : s.declaration.isSome = true := (Option.filter_eq_some_iff.1 hs).2
        simp [Option.filter, hsome]
    · simp only [hd, Bool.false_eq_true, if_false]
      unfold known?
      cases t.toldOf k with
      | none =>
        have hp := (Symbol.placeholder_places e.found.word e.found.role).2.2.1
        simp [Option.filter, Symbol.told, Entry.placeholder, hp]
      | some s => rfl
  · simp only [hk, if_false, beq_eq_false_iff_ne.2 hk, Bool.and_false, Bool.false_eq_true]
    rfl

private theorem records_record {t u : SymbolTable} {key file k f : String} {s : Symbol}
    {p q : Position} {id : Option String} (hs : u.symbols = (t.record key file s p id).symbols)
    (hr : s.references = t.referencesOf key) :
    u.Records k f q ↔ t.Records k f q ∨ key = k ∧ file = f ∧ p = q := by
  refine ⟨records_of_record hs hr, ?_⟩
  have hu : u.referencesOf k = (t.record key file s p id).referencesOf k := by
    simp only [referencesOf, hs]
  unfold Records
  rw [hu, referencesOf_record]
  rintro (⟨positions, hp, hq⟩ | ⟨rfl, rfl, rfl⟩)
  · split
    · rename_i hk
      subst hk
      rw [getElem?_addPosition, hr]
      split
      · rename_i hf
        subst hf
        exact ⟨_, rfl, by simp [hp, hq]⟩
      · exact ⟨positions, hp, hq⟩
    · exact ⟨positions, hp, hq⟩
  · rw [if_pos rfl, getElem?_addPosition, if_pos rfl]
    exact ⟨_, rfl, Std.ExtTreeSet.mem_insert_self⟩

theorem records_put {t : SymbolTable} {e : Entry} {k f : String} {p : Position} :
    (t.put e).Records k f p ↔ t.Records k f p ∨ e.key? = some k ∧ e.file = f ∧ e.position = p ∧
      (e.declares = true → t.known? k = none) := by
  unfold put
  cases hk : e.key? with
  | none => simp
  | some key =>
    simp only [Option.some.injEq]
    by_cases hd : e.declares = true
    · simp only [hd, if_true, true_implies]
      by_cases hs : (t.declarationOf key).isSome = true
      · rw [if_pos hs]
        refine ⟨.inl, fun h => h.elim id ?_⟩
        rintro ⟨rfl, -, -, hn⟩
        rw [known?_eq_none_iff] at hn
        simp [hn] at hs
      · rw [if_neg hs, records_record (symbols_recordDeclaration _ _ _ _ _) rfl]
        have hn : t.known? key = none := known?_eq_none_iff.2 (by simpa using hs)
        refine or_congr_right ⟨?_, ?_⟩
        · rintro ⟨rfl, rfl, rfl⟩
          exact ⟨rfl, rfl, rfl, hn⟩
        · rintro ⟨rfl, rfl, rfl, -⟩
          exact ⟨rfl, rfl, rfl⟩
    · simp only [hd, Bool.false_eq_true, if_false, false_implies, and_true]
      refine records_record rfl ?_
      unfold referencesOf
      cases t.symbols[key]? with
      | none => exact (Symbol.placeholder_places e.found.word e.found.role).2.2.2
      | some s => rfl

private theorem packIdOf_put {t : SymbolTable} (h : ∀ k, t.packIdOf k ≠ some "") (e : Entry) (k : String) :
    (t.put e).packIdOf k = (e.idFor? k).or (t.packIdOf k) := by
  unfold Entry.idFor?
  by_cases hk : e.key? = some k
  · by_cases hd : e.declares = true
    · simp only [put, hk, hd, if_true, Bool.true_eq_false, and_false, if_false, Option.none_or]
      split
      · rfl
      · have hp : e.declared.packId = none := (Symbol.declared_places e.declared_eq).2.1
        have hid := h k
        unfold packIdOf at hid ⊢
        rw [symbols_recordDeclaration, symbols_record, if_pos rfl]
        cases hs : t.symbols[k]? with
        | none => simp [inherit, hs, hp, givenId?]
        | some s =>
          rw [hs] at hid
          cases hi : s.packId with
          | none => simp [inherit, hs, hp, givenId?, hi]
          | some id =>
            have hne : id ≠ "" := by simpa [hi] using hid
            simp [inherit, hs, hp, givenId?, hi, hne, Option.filter]
    · simp only [put, hk, hd, Bool.false_eq_true, if_false, and_self, if_true]
      unfold packIdOf
      rw [symbols_record, if_pos rfl]
      cases t.symbols[k]? with
      | none =>
        have hp : e.placeholder.packId = none := (Symbol.placeholder_places _ _).2.1
        simp [hp]
      | some s => rfl
  · simp only [hk, false_and, if_false, Option.none_or]
    unfold packIdOf
    rw [symbols_put_of_ne t hk]

/-- A table as indexing and taking out files leave it: its two maps agree, no file is kept without a
key, and no pack id is empty. -/
structure Tidy (t : SymbolTable) : Prop where
  consistent : t.Consistent
  referring : ∀ (f : String) (entry : FileKeys), t.files[f]? = some entry → entry.referenced ≠ ∅
  ids : ∀ k, t.packIdOf k ≠ some ""

namespace Tidy
variable {t u : SymbolTable}

theorem empty : ({} : SymbolTable).Tidy where
  consistent := .empty
  referring f entry h := by simp at h
  ids k := by simp [packIdOf]

private theorem insert_ne (key : String) (keys : Std.ExtTreeSet String) : keys.insert key ≠ ∅ := by
  intro he
  have hm : key ∈ keys.insert key := Std.ExtTreeSet.mem_insert_self
  simp [he] at hm

theorem put (h : t.Tidy) (e : Entry) : (t.put e).Tidy where
  consistent := by
    by_cases hd : e.declares = true
    · exact h.consistent.declare (t.declare_eq_put hd)
    · rw [← t.refer_eq_put (by simpa using hd)]
      exact h.consistent.refer _ _ _ _ _
  referring f entry hf := by
    unfold SymbolTable.put at hf
    split at hf
    · exact h.referring f entry hf
    · split at hf
      · split at hf
        · exact h.referring f entry hf
        · rw [files_recordDeclaration] at hf
          split at hf
          · cases hf
            exact insert_ne _ _
          · exact h.referring f entry hf
      · rw [files_record] at hf
        split at hf
        · cases hf
          exact insert_ne _ _
        · exact h.referring f entry hf
  ids k := by
    rw [packIdOf_put h.ids]
    unfold Entry.idFor?
    split
    · cases hid : givenId? e.found.annotations.packId with
      | none => exact h.ids k
      | some id =>
        have hne := (Option.filter_eq_some_iff.1 hid).2
        simpa using hne
    · exact h.ids k

theorem putAll (h : t.Tidy) (es : List Entry) : (t.putAll es).Tidy := by
  induction es generalizing t with
  | nil => exact h
  | cons e es ih => exact ih (h.put e)

theorem clearFile (h : t.Tidy) (file : String) : (t.clearFile file).Tidy := by
  cases hf : fileKey? file with
  | none =>
    rw [clearFile_of_no_key hf]
    exact h
  | some f =>
    refine ⟨h.consistent.clearFile file, fun g entry hg => ?_, fun k => ?_⟩
    · rw [files_clearFile hf] at hg
      split at hg
      · cases hg
      · exact h.referring g entry hg
    · have hid := h.ids k
      unfold packIdOf at hid ⊢
      rw [h.consistent.symbols_clearFile hf]
      cases hs : t.symbols[k]? with
      | none => simp
      | some s =>
        rw [hs] at hid
        rw [Option.bind_some, Symbol.without]
        split
        · simp
        · exact hid

/-- The references under a key are known from the positions that are recorded. -/
theorem referencesOf_eq (ht : t.Tidy) (hu : u.Tidy) {k : String}
    (h : ∀ f p, t.Records k f p ↔ u.Records k f p) : t.referencesOf k = u.referencesOf k := by
  -- A file is among the references only with a position.
  have hsub {t u : SymbolTable} (ht : t.Tidy) (h : ∀ f p, t.Records k f p ↔ u.Records k f p)
      {f : String} {ps : Std.ExtTreeSet Position} (hp : (t.referencesOf k)[f]? = some ps) :
      ∃ qs, (u.referencesOf k)[f]? = some qs := by
    obtain ⟨p, hm⟩ : ∃ p, p ∈ ps := by
      by_cases hne : ∃ p, p ∈ ps
      · exact hne
      · have hempty : ps = ∅ := Std.ExtTreeSet.eq_empty_iff_forall_not_mem.2 fun p hm => hne ⟨p, hm⟩
        exact absurd hempty (ht.consistent.positions_ne hp)
    obtain ⟨qs, hq, -⟩ := (h f p).1 ⟨ps, hp, hm⟩
    exact ⟨qs, hq⟩
  apply Std.ExtTreeMap.ext_getElem?
  intro f
  cases hp : (t.referencesOf k)[f]? with
  | none =>
    cases hq : (u.referencesOf k)[f]? with
    | none => rfl
    | some qs =>
      obtain ⟨ps, hp'⟩ := hsub hu (fun f p => (h f p).symm) hq
      simp [hp] at hp'
  | some ps =>
    obtain ⟨qs, hq⟩ := hsub ht h hp
    rw [hq, Option.some.injEq]
    apply Std.ExtTreeSet.ext_mem
    intro p
    have hiff := h f p
    simpa [Records, hp, hq] using hiff

/-- What is told, the positions and the pack ids say all there is to a table. -/
theorem ext (ht : t.Tidy) (hu : u.Tidy) (told : ∀ k, t.toldOf k = u.toldOf k)
    (records : ∀ k f p, t.Records k f p ↔ u.Records k f p)
    (ids : ∀ k, t.packIdOf k = u.packIdOf k) : t = u := by
  have hsymbols : t.symbols = u.symbols := by
    apply Std.ExtTreeMap.ext_getElem?
    intro k
    have ht' := told k
    have hr := ht.referencesOf_eq hu (records k)
    have hi := ids k
    unfold toldOf at ht'
    unfold referencesOf at hr
    unfold packIdOf at hi
    cases hs : t.symbols[k]? with
    | none =>
      rw [hs] at ht'
      simpa using ht'.symm
    | some s =>
      rw [hs] at ht' hr hi
      obtain ⟨s', hs', he⟩ := Option.map_eq_some_iff.1 ht'.symm
      rw [hs'] at hr hi ⊢
      simp only [Option.map_some, Option.getD_some, Option.bind_some] at hr hi
      cases s
      cases s'
      simp only [Symbol.told, Symbol.mk.injEq] at he
      simp_all
  have hrefers (f k : String) : t.Refers f k ↔ u.Refers f k := by
    rw [ht.consistent.refers_iff, hu.consistent.refers_iff, hsymbols]
  have hdeclares (f k : String) : t.Declares f k ↔ u.Declares f k := by
    rw [ht.consistent.declares_iff, hu.consistent.declares_iff, hsymbols]
  have hfiles : t.files = u.files := by
    -- A file is kept only with a key that it refers to.
    have hsub {t u : SymbolTable} (ht : t.Tidy) (h : ∀ f k, t.Refers f k ↔ u.Refers f k) {f : String}
        {entry : FileKeys} (he : t.files[f]? = some entry) : ∃ entry', u.files[f]? = some entry' := by
      obtain ⟨k, hm⟩ : ∃ k, k ∈ entry.referenced := by
        by_cases hne : ∃ k, k ∈ entry.referenced
        · exact hne
        · exact absurd (Std.ExtTreeSet.eq_empty_iff_forall_not_mem.2 fun k hm => hne ⟨k, hm⟩)
            (ht.referring f entry he)
      obtain ⟨entry', he', -⟩ := (h f k).1 ⟨entry, he, hm⟩
      exact ⟨entry', he'⟩
    apply Std.ExtTreeMap.ext_getElem?
    intro f
    cases he : t.files[f]? with
    | none =>
      cases he' : u.files[f]? with
      | none => rfl
      | some entry' =>
        obtain ⟨entry, he⟩ := hsub hu (fun f k => (hrefers f k).symm) he'
        simp_all
    | some entry =>
      obtain ⟨entry', he'⟩ := hsub ht hrefers he
      rw [he', Option.some.injEq]
      have hr (k : String) : k ∈ entry.referenced ↔ k ∈ entry'.referenced := by
        simpa [Refers, he, he'] using hrefers f k
      have hd (k : String) : k ∈ entry.declared ↔ k ∈ entry'.declared := by
        simpa [Declares, he, he'] using hdeclares f k
      cases entry
      cases entry'
      rw [FileKeys.mk.injEq]
      exact ⟨Std.ExtTreeSet.ext_mem hd, Std.ExtTreeSet.ext_mem hr⟩
  cases t
  cases u
  simp_all

end Tidy

theorem putAll_append (t : SymbolTable) (es es' : List Entry) :
    t.putAll (es ++ es') = (t.putAll es).putAll es' :=
  List.foldl_append

/-- A symbol is declared by the first entry that does so, unless it was before. -/
theorem known?_putAll (t : SymbolTable) (es : List Entry) (k : String) :
    (t.putAll es).known? k =
      (t.known? k).or ((es.find? (Entry.declaresKey k)).map fun e => e.declared.told) := by
  induction es generalizing t with
  | nil => simp [putAll]
  | cons e es ih =>
    rw [putAll, List.foldl_cons, ← putAll, ih, known?_put]
    by_cases hd : e.declaresKey k = true
    · rw [if_pos hd, List.find?_cons_of_pos hd]
      cases t.known? k <;> rfl
    · rw [if_neg hd, List.find?_cons_of_neg hd]

/-- What is told of a symbol: what its declaration tells, or else what was told before, or else what
the first entry tells. -/
theorem toldOf_putAll (t : SymbolTable) (es : List Entry) (k : String) :
    (t.putAll es).toldOf k = ((t.putAll es).known? k).or ((t.toldOf k).or
      ((es.find? fun e => e.key? == some k).map fun e => e.placeholder.told)) := by
  induction es generalizing t with
  | nil =>
    rw [putAll, List.foldl_nil, List.find?_nil, Option.map_none, Option.or_none, known?]
    cases t.toldOf k with
    | none => rfl
    | some s => cases h : s.declaration.isSome <;> simp [Option.filter, h]
  | cons e es ih =>
    rw [putAll, List.foldl_cons, ← putAll, ih, toldOf_put]
    by_cases hk : e.key? = some k
    · rw [if_pos hk, List.find?_cons_of_pos (by simp [hk])]
      by_cases hd : e.declares = true
      · -- A declaration is known from there on.
        have hknown : ((t.put e).known? k).isSome = true := by
          rw [known?_put, if_pos (by simp [Entry.declaresKey, hd, hk])]
          rfl
        obtain ⟨s, hs⟩ := Option.isSome_iff_exists.1 hknown
        rw [known?_putAll, hs]
        rfl
      · rw [if_neg hd]
        cases t.toldOf k <;> rfl
    · rw [if_neg hk, List.find?_cons_of_neg (by simp [hk])]

/-- A position is recorded before, by a reference, or by the entry that declares the symbol. -/
theorem records_putAll {t : SymbolTable} {es : List Entry} {k f : String} {p : Position} :
    (t.putAll es).Records k f p ↔ t.Records k f p ∨
      (∃ e ∈ es, e.declares = false ∧ e.key? = some k ∧ e.file = f ∧ e.position = p) ∨
      t.known? k = none ∧ ∃ e, es.find? (Entry.declaresKey k) = some e ∧ e.file = f ∧
        e.position = p := by
  induction es generalizing t with
  | nil => simp [putAll]
  | cons e es ih =>
    rw [putAll, List.foldl_cons, ← putAll, ih, records_put, known?_put]
    by_cases hd : e.declaresKey k = true
    · have hk : e.declares = true ∧ e.key? = some k := by simpa [Entry.declaresKey] using hd
      simp only [hd, if_true, List.find?_cons_of_pos hd, hk.1, hk.2, true_implies, true_and,
        List.mem_cons, or_and_right, exists_or, exists_eq_left, Bool.true_eq_false, false_and,
        reduceCtorEq, or_false, false_or, Option.some.injEq, exists_eq_left']
      constructor
      · rintro ((h | ⟨h1, h2, h3⟩) | h)
        · exact .inl h
        · exact .inr (.inr ⟨h3, h1, h2⟩)
        · exact .inr (.inl h)
      · rintro (h | h | ⟨h3, h1, h2⟩)
        · exact .inl (.inl h)
        · exact .inr h
        · exact .inl (.inr ⟨h1, h2, h3⟩)
    · simp only [hd, if_false, List.find?_cons_of_neg hd, List.mem_cons, or_and_right, exists_or,
        exists_eq_left, or_assoc, Bool.false_eq_true]
      refine or_congr_right (or_congr_left ?_)
      constructor
      · rintro ⟨hk, hf, hp, -⟩
        have hn : e.declares = false := by
          rw [← Bool.not_eq_true]
          intro h
          exact hd (by simp [Entry.declaresKey, h, hk])
        exact ⟨hn, hk, hf, hp⟩
      · rintro ⟨hn, hk, hf, hp⟩
        exact ⟨hk, hf, hp, by simp [hn]⟩

def lastId? (k : String) (es : List Entry) : Option String :=
  (es.filterMap (Entry.idFor? k)).getLast?

theorem packIdOf_putAll {t : SymbolTable} (h : t.Tidy) (es : List Entry) (k : String) :
    (t.putAll es).packIdOf k = (lastId? k es).or (t.packIdOf k) := by
  induction es generalizing t with
  | nil => rfl
  | cons e es ih =>
    rw [putAll, List.foldl_cons, ← putAll, ih (h.put e), packIdOf_put h.ids]
    unfold lastId?
    cases hi : e.idFor? k with
    | none => rw [List.filterMap_cons_none hi, Option.none_or]
    | some id =>
      rw [List.filterMap_cons_some hi, List.getLast?_cons]
      cases (es.filterMap (Entry.idFor? k)).getLast? <;> rfl

/-- A table that tells of every symbol that entries are about, and knows those that they declare, is
told nothing new by them. -/
private theorem toldOf_putAll_of_absorbed {t : SymbolTable} {es : List Entry} {k : String}
    (hdeclared : ∀ e ∈ es, e.declaresKey k = true → (t.known? k).isSome = true)
    (htold : ∀ e ∈ es, e.key? = some k → (t.toldOf k).isSome = true) :
    (t.putAll es).toldOf k = t.toldOf k := by
  have hknown : (t.putAll es).known? k = t.known? k := by
    rw [known?_putAll]
    cases hf : es.find? (Entry.declaresKey k) with
    | none => simp
    | some e =>
      obtain ⟨s, hs⟩ := Option.isSome_iff_exists.1
        (hdeclared e (List.mem_of_find?_eq_some hf) (List.find?_some hf))
      rw [hs]
      rfl
  rw [toldOf_putAll, hknown]
  cases ht : t.toldOf k with
  | some s =>
    rw [known?, ht]
    cases h : s.declaration.isSome <;> simp [Option.filter, h]
  | none =>
    have hf : (es.find? fun e => e.key? == some k) = none := by
      rw [List.find?_eq_none]
      intro e he hk
      simpa [ht] using htold e he (by simpa using hk)
    simp [known?, ht, hf]

theorem known?_isSome_of_mem {t : SymbolTable} {es : List Entry} {e : Entry} {k : String}
    (he : e ∈ es) (hd : e.declaresKey k = true) : ((t.putAll es).known? k).isSome = true := by
  obtain ⟨e', hf⟩ := Option.isSome_iff_exists.1 (List.find?_isSome.2 ⟨e, he, hd⟩)
  rw [known?_putAll, hf]
  cases t.known? k <;> rfl

private theorem toldOf_isSome_of_mem {t : SymbolTable} {es : List Entry} {e : Entry} {k : String}
    (he : e ∈ es) (hk : e.key? = some k) : ((t.putAll es).toldOf k).isSome = true := by
  obtain ⟨e', hf⟩ := Option.isSome_iff_exists.1
    (List.find?_isSome (p := fun e => e.key? == some k).2 ⟨e, he, by simp [hk]⟩)
  rw [toldOf_putAll, hf]
  cases (t.putAll es).known? k <;> cases t.toldOf k <;> rfl

/-- Entries that were put tell nothing new. -/
theorem toldOf_putAll_again (t : SymbolTable) {es es' : List Entry} (h : es' ⊆ es) (k : String) :
    ((t.putAll es).putAll es').toldOf k = (t.putAll es).toldOf k :=
  toldOf_putAll_of_absorbed (fun _ he hd => known?_isSome_of_mem (h he) hd)
    fun _ he hk => toldOf_isSome_of_mem (h he) hk

/-- The same entries put once more change nothing. -/
theorem putAll_idempotent {t : SymbolTable} (h : t.Tidy) (es : List Entry) :
    (t.putAll es).putAll es = t.putAll es := by
  refine ((h.putAll es).putAll es).ext (h.putAll es) ?_ ?_ ?_
  · exact fun k => t.toldOf_putAll_again (List.Subset.refl es) k
  · intro k f p
    rw [records_putAll (t := t.putAll es)]
    refine ⟨fun hr => ?_, .inl⟩
    rcases hr with hr | hr | ⟨hn, e, he, -⟩
    · exact hr
    · exact records_putAll.2 (.inr (.inl hr))
    · have hs := known?_isSome_of_mem (t := t) (List.mem_of_find?_eq_some he) (List.find?_some he)
      simp [hn] at hs
  · intro k
    rw [packIdOf_putAll (h.putAll es), packIdOf_putAll h]
    cases lastId? k es <;> rfl

end SymbolTable

end ScriptIndex
