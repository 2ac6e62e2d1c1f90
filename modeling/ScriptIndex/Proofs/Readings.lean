import Mathlib.Data.List.Sort
import ScriptIndex.Proofs.TableEntries

/-! What classification reads of a table: signatures, the values of params and columns, and the
declarations above a line of a file. A table in which more is declared elsewhere shows all that another
one shows. -/
namespace ScriptIndex

namespace Symbol

theorem signature_placeholder (name : String) (role : Role) :
    (placeholder name role).signature = none := by
  unfold placeholder
  split
  · obtain ⟨info, value, h⟩ :=
      describeReference_eq { bare name role.category with extra := role.extra }
    rw [h]
    rfl
  · rfl

private theorem extra_placeholder {name : String} {role : Role}
    (h : role.category.profile.referenceOnly = false) : (placeholder name role).extra = [] := by
  rw [placeholder, if_neg (by simp [h])]
  rfl

def StandsAbove (file : String) (number : Int) (s : Symbol) : Prop :=
  ∃ l, s.declaration = some l ∧ fileKey? l.file = fileKey? file ∧ l.span.start.line < number

end Symbol

namespace SymbolTable

/-- A table in which symbols that are not declared tell nothing that a rule reads: no signature, and
values only under the keys of categories that are never declared. -/
structure Plain (t : SymbolTable) : Prop where
  signature : ∀ k s, t.toldOf k = some s → s.declaration = none → s.signature = none
  extra : ∀ k s, t.toldOf k = some s → s.declaration = none → s.extra ≠ [] →
    ∃ (name : String) (c : Category), k = name ++ c.id ∧ c.profile.referenceOnly = true

/-- A table knows less than another one, but the same of what stands above a line of a file. -/
structure Below (file : String) (number : Int) (t u : SymbolTable) : Prop where
  known : ∀ k s, t.known? k = some s → u.known? k = some s
  above : ∀ k s, u.known? k = some s → s.StandsAbove file number → t.known? k = some s

/-- What a rule reads of a table on a line of a file it reads of another one too: the declaration above
the line, the signatures that are there, and the values of params and columns. -/
structure Shows [KeyOrder] (file : String) (number : Int) (t u : SymbolTable) : Prop where
  parents : ∀ accepts, (t.parent? file number accepts).map Symbol.told =
    (u.parent? file number accepts).map Symbol.told
  signatures : ∀ k : String, (t.symbols[k]?).bind Symbol.signature = none ∨
    (t.symbols[k]?).bind Symbol.signature = (u.symbols[k]?).bind Symbol.signature
  values : ∀ name c, c = .param ∨ c = .dbColumn → (∀ s, t.get? name c = some s → s.extra = []) ∨
    ∃ s s', t.get? name c = some s ∧ u.get? name c = some s' ∧ s.name = s'.name ∧ s.extra = s'.extra

namespace Plain

theorem empty : ({} : SymbolTable).Plain where
  signature k s h := by simp [toldOf] at h
  extra k s h := by simp [toldOf] at h

theorem put {t : SymbolTable} (h : t.Plain) (e : Entry) : (t.put e).Plain := by
  -- A symbol after an entry was there before, or is declared, or is the placeholder of a reference.
  have hcases (k : String) (s : Symbol) (hs : (t.put e).toldOf k = some s)
      (hd : s.declaration = none) : t.toldOf k = some s ∨
        e.key? = some k ∧ s = e.placeholder.told := by
    rw [toldOf_put] at hs
    split at hs
    · rename_i hk
      split at hs
      · cases hknown : t.known? k with
        | none =>
          rw [hknown] at hs
          cases hs
          exact absurd (e.declared_declaration.symm.trans hd) (by simp)
        | some s' =>
          rw [hknown] at hs
          cases hs
          obtain ⟨-, hsome⟩ := Option.filter_eq_some_iff.1 hknown
          have hd : s'.declaration = none := hd
          simp [hd] at hsome
      · cases ht : t.toldOf k with
        | none =>
          rw [ht] at hs
          cases hs
          exact .inr ⟨hk, rfl⟩
        | some s' =>
          rw [ht] at hs
          cases hs
          exact .inl rfl
    · exact .inl hs
  refine ⟨fun k s hs hd => ?_, fun k s hs hd he => ?_⟩
  · rcases hcases k s hs hd with hs | ⟨-, rfl⟩
    · exact h.signature k s hs hd
    · exact Symbol.signature_placeholder _ _
  · rcases hcases k s hs hd with hs | ⟨hk, rfl⟩
    · exact h.extra k s hs hd he
    · have hr : e.found.role.category.profile.referenceOnly = true := by
        rw [← Bool.not_eq_false]
        exact fun hr => he (Symbol.extra_placeholder hr)
      unfold Entry.key? Symbol.key? at hk
      split at hk
      · cases hk
      · exact ⟨_, _, (Option.some.inj hk).symm, hr⟩

private theorem putAll {t : SymbolTable} (h : t.Plain) (es : List Entry) : (t.putAll es).Plain := by
  induction es generalizing t with
  | nil => exact h
  | cons e es ih => exact ih (h.put e)

end Plain

theorem known?_some {t : SymbolTable} {k : String} {s : Symbol} (h : t.known? k = some s) :
    ∃ s', t.symbols[k]? = some s' ∧ s'.told = s ∧ s'.declaration.isSome = true := by
  obtain ⟨hs, hd⟩ := Option.filter_eq_some_iff.1 h
  obtain ⟨s', hs', rfl⟩ := Option.map_eq_some_iff.1 hs
  exact ⟨s', hs', rfl, hd⟩

theorem declaration_of_known?_none {t : SymbolTable} {k : String} {s : Symbol}
    (h : t.known? k = none) (hs : t.symbols[k]? = some s) : s.declaration = none := by
  rw [← declarationOf_of_some hs]
  exact known?_eq_none_iff.1 h

/-- The signature under a key is that of a declared symbol. -/
private theorem Plain.signature_eq {t : SymbolTable} (h : t.Plain) (k : String) :
    (t.symbols[k]?).bind Symbol.signature = (t.known? k).bind Symbol.signature := by
  cases hk : t.known? k with
  | none =>
    cases hs : t.symbols[k]? with
    | none => rfl
    | some s =>
      have hd : s.declaration = none := declaration_of_known?_none hk hs
      exact h.signature k s.told (by simp [toldOf, hs]) hd
  | some s =>
    obtain ⟨s', hs', rfl, -⟩ := known?_some hk
    rw [hs']
    rfl

private theorem getLast?_id {c : Category} (h : c.profile.referenceOnly = true) :
    c.id.toList.getLast? ≠ some 'M' ∧ c.id.toList.getLast? ≠ some 'N' := by
  cases c <;> revert h <;> decide

/-- A param or a column that is not declared has no values. -/
theorem Plain.extra_eq_nil {t : SymbolTable} (h : t.Plain) {name k : String} {c : Category}
    (hc : c = .param ∨ c = .dbColumn) (hk : Symbol.key? name c = some k) (hknown : t.known? k = none)
    {s : Symbol} (hs : t.symbols[k]? = some s) : s.extra = [] := by
  by_cases he : s.extra = []
  · exact he
  · have hd : s.declaration = none := declaration_of_known?_none hknown hs
    obtain ⟨name', c', rfl, hr⟩ := h.extra k s.told (by simp [toldOf, hs]) hd he
    unfold Symbol.key? at hk
    split at hk
    · cases hk
    · -- The keys of these two categories end in other letters.
      have hl := congrArg (fun k : String => k.toList.getLast?) (Option.some.inj hk)
      have hne : c'.id.toList ≠ [] := by cases c' <;> decide
      simp only [String.toList_append, List.getLast?_append, List.getLast?_eq_some_getLast hne,
        Option.some_or] at hl
      rw [← List.getLast?_eq_some_getLast hne] at hl
      obtain ⟨hM, hN⟩ := getLast?_id hr
      rcases hc with rfl | rfl
      · exact absurd hl.symm hM
      · exact absurd hl.symm hN

namespace Below
variable {file : String} {number : Int} {t u v : SymbolTable}

theorem refl (t : SymbolTable) : Below file number t t :=
  ⟨fun _ _ h => h, fun _ _ h _ => h⟩

theorem trans (h : Below file number t u) (h' : Below file number u v) : Below file number t v :=
  ⟨fun k s hs => h'.known k s (h.known k s hs), fun k s hs ha => h.above k s (h'.above k s hs ha) ha⟩

theorem of_known?_eq (h : ∀ k, t.known? k = u.known? k) : Below file number t u :=
  ⟨fun k s hs => by rwa [← h k], fun k s hs _ => by rwa [h k]⟩

private theorem known?_cases (h : Below file number t u) (k : String) :
    t.known? k = none ∨ t.known? k = u.known? k := by
  cases hs : t.known? k with
  | none => exact .inl rfl
  | some s => exact .inr (h.known k s hs).symm

private theorem signature_cases (h : Below file number t u) (ht : t.Plain) (hu : u.Plain) (k : String) :
    (t.symbols[k]?).bind Symbol.signature = none ∨
      (t.symbols[k]?).bind Symbol.signature = (u.symbols[k]?).bind Symbol.signature := by
  rw [ht.signature_eq, hu.signature_eq]
  rcases h.known?_cases k with hk | hk
  · exact .inl (by rw [hk]; rfl)
  · exact .inr (by rw [hk])

/-- A param or a column has no values yet, or the other table has the same symbol. -/
private theorem get?_cases (h : Below file number t u) (ht : t.Plain) (name : String) {c : Category}
    (hc : c = .param ∨ c = .dbColumn) : (∀ s, t.get? name c = some s → s.extra = []) ∨
      ∃ s s', t.get? name c = some s ∧ u.get? name c = some s' ∧ s.name = s'.name ∧
        s.extra = s'.extra := by
  unfold get?
  cases hk : Symbol.key? name c with
  | none => exact .inl fun s hs => by cases hs
  | some k =>
    cases hs : t.known? k with
    | none => exact .inl fun s hs' => ht.extra_eq_nil hc hk hs hs'
    | some s =>
      obtain ⟨s', hs', rfl, -⟩ := known?_some hs
      obtain ⟨u', hu', he, -⟩ := known?_some (h.known k _ hs)
      have hn : u'.told.name = s'.told.name := by rw [he]
      have hx : u'.told.extra = s'.told.extra := by rw [he]
      exact .inr ⟨s', u', hs', hu', hn.symm, hx.symm⟩

end Below

section
variable {candidates : List (Int × Symbol)} {best : Option (Int × Symbol)} {c : Int × Symbol}

theorem foldl_lower_mem (h : candidates.foldl lower best = some c) : best = some c ∨ c ∈ candidates := by
  induction candidates generalizing best with
  | nil => exact .inl h
  | cons first candidates ih =>
    rcases ih h with hl | hm
    · unfold lower at hl
      split at hl
      · split at hl
        · exact .inr (Option.some.inj hl ▸ List.mem_cons_self)
        · exact .inl hl
      · exact .inr (Option.some.inj hl ▸ List.mem_cons_self)
    · exact .inr (List.mem_cons_of_mem _ hm)

/-- A step keeps a candidate that is no higher than the best one and the new one. -/
private theorem exists_lower (best : Option (Int × Symbol)) (first : Int × Symbol) :
    ∃ d, lower best first = some d ∧ first.1 ≤ d.1 ∧ ∀ b, best = some b → b.1 ≤ d.1 := by
  cases best with
  | none => exact ⟨first, rfl, le_rfl, fun b hb => by cases hb⟩
  | some b =>
    by_cases hlt : b.1 < first.1
    · refine ⟨first, if_pos hlt, le_rfl, ?_⟩
      rintro _ ⟨⟩
      exact hlt.le
    · refine ⟨b, if_neg hlt, not_lt.1 hlt, ?_⟩
      rintro _ ⟨⟩
      exact le_rfl

/-- No candidate is lower than the one that is kept. -/
theorem le_of_foldl_lower (h : candidates.foldl lower best = some c) :
    (∀ b, best = some b → b.1 ≤ c.1) ∧ ∀ d ∈ candidates, d.1 ≤ c.1 := by
  induction candidates generalizing best with
  | nil =>
    refine ⟨fun b hb => ?_, fun d hd => by cases hd⟩
    cases hb.symm.trans h
    exact le_rfl
  | cons first candidates ih =>
    obtain ⟨d, hd, hfirst, hbest⟩ := exists_lower best first
    obtain ⟨hkept, hrest⟩ := ih h
    have hdc : d.1 ≤ c.1 := hkept d hd
    refine ⟨fun b hb => (hbest b hb).trans hdc, ?_⟩
    intro e he
    rcases List.mem_cons.1 he with rfl | he
    · exact hfirst.trans hdc
    · exact hrest e he

theorem foldl_lower_eq_none_iff : candidates.foldl lower best = none ↔ best = none ∧ candidates = [] := by
  induction candidates generalizing best with
  | nil => simp
  | cons first candidates ih =>
    obtain ⟨d, hd, -⟩ := exists_lower best first
    rw [List.foldl_cons, ih, hd]
    simp

/-- Which candidate is kept does not depend on their order if no two stand on one line. -/
theorem foldl_lower_congr {others : List (Int × Symbol)} (h : ∀ c, c ∈ candidates ↔ c ∈ others)
    (hapart : ∀ c ∈ others, ∀ d ∈ others, c.1 = d.1 → c = d) :
    candidates.foldl lower none = others.foldl lower none := by
  cases hc : candidates.foldl lower none with
  | none =>
    obtain ⟨-, rfl⟩ := foldl_lower_eq_none_iff.1 hc
    have hothers : others = [] := List.eq_nil_iff_forall_not_mem.2 fun c hm => by
      cases (h c).2 hm
    rw [hothers]
    rfl
  | some c =>
    have hmc : c ∈ others := (h c).1 ((foldl_lower_mem hc).resolve_left (by simp))
    cases hd : others.foldl lower none with
    | none =>
      obtain ⟨-, rfl⟩ := foldl_lower_eq_none_iff.1 hd
      cases hmc
    | some d =>
      have hmd : d ∈ others := (foldl_lower_mem hd).resolve_left (by simp)
      have hle : c.1 ≤ d.1 := (le_of_foldl_lower hd).2 c hmc
      have hge : d.1 ≤ c.1 := (le_of_foldl_lower hc).2 d ((h d).2 hmd)
      rw [hapart c hmc d hmd (le_antisymm hle hge)]

end

private theorem foldl_lower_told (candidates : List (Int × Symbol)) (best : Option (Int × Symbol)) :
    ((candidates.map fun c => (c.1, c.2.told)).foldl lower (best.map fun c => (c.1, c.2.told))) =
      (candidates.foldl lower best).map fun c => (c.1, c.2.told) := by
  induction candidates generalizing best with
  | nil => rfl
  | cons c candidates ih =>
    rw [List.map_cons, List.foldl_cons, List.foldl_cons, ← ih]
    congr 1
    cases best with
    | none => rfl
    | some b =>
      simp only [lower, Option.map_some]
      split <;> rfl

def candidate? (t : SymbolTable) (line : Int) (accepts : Category → Bool) (key : String) :
    Option (Int × Symbol) :=
  (t.known? key).bind fun s => (lineBefore? line accepts s).map (·, s)

def declaredKeys (t : SymbolTable) (file : String) : List String :=
  ((t.keysOf? file).map fun entry => entry.declared.toList).getD []

def walkedKeys [KeyOrder] (t : SymbolTable) (file : String) : List String :=
  ((t.keysOf? file).map fun entry => KeyOrder.walk entry.declared).getD []

theorem walkedKeys_perm [KeyOrder] (t : SymbolTable) (file : String) :
    (t.walkedKeys file).Perm (t.declaredKeys file) := by
  unfold walkedKeys declaredKeys
  cases t.keysOf? file with
  | none => exact .refl _
  | some entry => exact KeyOrder.walk_perm _

/-- The symbol declared closest above a line, as what is told of it. -/
theorem parent?_told_eq [KeyOrder] (t : SymbolTable) (file : String) (line : Int)
    (accepts : Category → Bool) :
    (t.parent? file line accepts).map Symbol.told =
      (((t.walkedKeys file).filterMap (t.candidate? line accepts)).foldl lower none).map
        Prod.snd := by
  unfold parent? walkedKeys
  cases t.keysOf? file with
  | none => rfl
  | some entry =>
    simp only [Option.bind_eq_bind, Option.bind_some, Option.map_some, Option.getD_some]
    have hcandidates : (KeyOrder.walk entry.declared).filterMap (t.candidate? line accepts) =
        ((KeyOrder.walk entry.declared).filterMap fun key => (t.symbols[key]?).bind fun s =>
          (lineBefore? line accepts s).bind fun start => pure (start, s)).map
            fun c => (c.1, c.2.told) := by
      rw [List.map_filterMap]
      refine List.filterMap_congr fun key _ => ?_
      unfold candidate? known? toldOf
      cases t.symbols[key]? with
      | none => rfl
      | some s =>
        cases hd : s.declaration with
        | none => simp [lineBefore?, hd, Option.filter, Symbol.told]
        | some l =>
          have hbefore : lineBefore? line accepts s.told = lineBefore? line accepts s := rfl
          have hsome : s.told.declaration.isSome = true := by simp [Symbol.told, hd]
          simp only [Option.map_some, Option.filter, hsome, if_true, Option.bind_some, hbefore]
          cases lineBefore? line accepts s <;> rfl
    have hfold := foldl_lower_told ((KeyOrder.walk entry.declared).filterMap fun key =>
      (t.symbols[key]?).bind fun s => (lineBefore? line accepts s).bind fun start => pure (start, s))
      none
    rw [Option.map_none] at hfold
    rw [hcandidates, hfold, Option.map_map, Option.map_map]
    rfl

theorem mem_declaredKeys {t : SymbolTable} (h : t.Consistent) {file key : String} {s : Symbol}
    (hs : t.known? key = some s) :
    key ∈ t.declaredKeys file ↔
      ∃ l, s.declaration = some l ∧ ∃ f, fileKey? l.file = some f ∧ fileKey? file = some f := by
  unfold declaredKeys keysOf?
  obtain ⟨s', hs', rfl, -⟩ := known?_some hs
  cases hf : fileKey? file with
  | none => simp
  | some f =>
    have hiff : t.Declares f key ↔ s'.declaredIn f = true := by
      rw [h.declares_iff]
      simp [hs']
    rw [Symbol.declaredIn_iff] at hiff
    unfold Declares at hiff
    simp only [Option.bind_some, Option.some.injEq, exists_eq_right']
    refine Iff.trans ?_ hiff
    cases t.files[f]? <;> simp

private theorem candidate?_eq_some_iff {t : SymbolTable} {number : Int} {accepts : Category → Bool}
    {k : String}
    {b : Int × Symbol} : t.candidate? number accepts k = some b ↔
      t.known? k = some b.2 ∧ lineBefore? number accepts b.2 = some b.1 := by
  unfold candidate?
  constructor
  · intro h
    obtain ⟨s, hs, hb⟩ := Option.bind_eq_some_iff.1 h
    obtain ⟨start, hstart, rfl⟩ := Option.map_eq_some_iff.1 hb
    exact ⟨hs, hstart⟩
  · rintro ⟨hs, hstart⟩
    rw [hs, Option.bind_some, hstart]
    rfl

private theorem declaration_of_lineBefore? {line start : Int} {accepts : Category → Bool} {s : Symbol}
    (h : lineBefore? line accepts s = some start) :
    ∃ l, s.declaration = some l ∧ l.span.start.line = start ∧ start < line := by
  obtain ⟨l, hl, h⟩ := Option.bind_eq_some_iff.1 h
  dsimp only at h
  split at h
  · rename_i hc
    cases h
    exact ⟨l, hl, rfl, hc.2.1⟩
  · cases h

/-- No two symbols are declared on one line of a file. -/
def Apart (t : SymbolTable) : Prop :=
  ∀ k k' l l', t.declarationOf k = some l → t.declarationOf k' = some l' →
    fileKey? l.file = fileKey? l'.file → l.span.start.line = l'.span.start.line → k = k'

instance (t : SymbolTable) : Decidable t.Apart :=
  decidable_of_iff (∀ p ∈ t.symbols.toList, ∀ q ∈ t.symbols.toList, ∀ l ∈ p.2.declaration,
    ∀ l' ∈ q.2.declaration, fileKey? l.file = fileKey? l'.file →
      l.span.start.line = l'.span.start.line → p.1 = q.1) <| by
  have hmem {k : String} {l : Location} :
      t.declarationOf k = some l ↔ ∃ s, (k, s) ∈ t.symbols.toList ∧ l ∈ s.declaration := by
    simp only [Std.ExtTreeMap.mem_toList_iff_getElem?_eq_some]
    exact Option.bind_eq_some_iff
  constructor
  · intro h k k' l l' hl hl'
    obtain ⟨s, hs, hl⟩ := hmem.1 hl
    obtain ⟨s', hs', hl'⟩ := hmem.1 hl'
    exact h (k, s) hs (k', s') hs' l hl l' hl'
  · rintro h ⟨k, s⟩ hs ⟨k', s'⟩ hs' l hl l' hl'
    exact h k k' l l' (hmem.2 ⟨s, hs, hl⟩) (hmem.2 ⟨s', hs', hl'⟩)

theorem declarationOf_eq (t : SymbolTable) (key : String) :
    t.declarationOf key = (t.known? key).bind Symbol.declaration := by
  unfold declarationOf known? toldOf
  cases t.symbols[key]? with
  | none => rfl
  | some s => cases h : s.declaration <;> simp [Option.filter, Symbol.told, h]

theorem Apart.of_known {t u : SymbolTable} (h : u.Apart)
    (hknown : ∀ k s, t.known? k = some s → u.known? k = some s) : t.Apart := by
  have hsame {k : String} {l : Location} (hl : t.declarationOf k = some l) :
      u.declarationOf k = some l := by
    rw [declarationOf_eq] at hl ⊢
    obtain ⟨s, hs, hl⟩ := Option.bind_eq_some_iff.1 hl
    rw [hknown k s hs]
    exact hl
  exact fun k k' l l' hl hl' => h k k' l l' (hsame hl) (hsame hl')

/-- Where no two symbols are declared on one line, the symbol declared closest above a line is the same
with more declared elsewhere, in whatever order the keys are walked. -/
theorem Below.parent? [KeyOrder] {file : String} {number : Int} {t u : SymbolTable}
    (h : Below file number t u) (ht : t.Consistent) (hu : u.Consistent) (hapart : u.Apart)
    (accepts : Category → Bool) :
    (t.parent? file number accepts).map Symbol.told =
      (u.parent? file number accepts).map Symbol.told := by
  have hstep {t u : SymbolTable} (ht : t.Consistent) (hu : u.Consistent) {k : String} {b : Int × Symbol}
      (hk : ∀ s, t.known? k = some s → s.StandsAbove file number → u.known? k = some s)
      (hm : k ∈ t.declaredKeys file) (hb : t.candidate? number accepts k = some b) :
      k ∈ u.declaredKeys file ∧ u.candidate? number accepts k = some b := by
    obtain ⟨hs, hstart⟩ := candidate?_eq_some_iff.1 hb
    obtain ⟨l, hl, hn, hlt⟩ := declaration_of_lineBefore? hstart
    obtain ⟨l', hl', f, hf, hff⟩ := (mem_declaredKeys ht hs).1 hm
    cases hl.symm.trans hl'
    have hus := hk b.2 hs ⟨l, hl, hf.trans hff.symm, by rwa [hn]⟩
    exact ⟨(mem_declaredKeys hu hus).2 ⟨l, hl, f, hf, hff⟩, candidate?_eq_some_iff.2 ⟨hus, hstart⟩⟩
  rw [parent?_told_eq, parent?_told_eq]
  congr 1
  refine foldl_lower_congr (fun c => ?_) fun c hc d hd hline => ?_
  · simp only [List.mem_filterMap, (walkedKeys_perm _ _).mem_iff]
    refine exists_congr fun k => ⟨fun ⟨hm, hb⟩ => ?_, fun ⟨hm, hb⟩ => ?_⟩
    · exact hstep ht hu (fun s hs _ => h.known k s hs) hm hb
    · exact hstep hu ht (fun s hs ha => h.above k s hs ha) hm hb
  · -- Two candidates on one line are declared on one line of the file.
    obtain ⟨k, hk, hb⟩ := List.mem_filterMap.1 hc
    obtain ⟨k', hk', hb'⟩ := List.mem_filterMap.1 hd
    obtain ⟨hs, hstart⟩ := candidate?_eq_some_iff.1 hb
    obtain ⟨hs', hstart'⟩ := candidate?_eq_some_iff.1 hb'
    obtain ⟨l, hl, hn, -⟩ := declaration_of_lineBefore? hstart
    obtain ⟨l', hl', hn', -⟩ := declaration_of_lineBefore? hstart'
    obtain ⟨m, hm, f, hf, hff⟩ := (mem_declaredKeys hu hs).1 ((walkedKeys_perm _ _).mem_iff.1 hk)
    obtain ⟨m', hm', f', hf', hff'⟩ := (mem_declaredKeys hu hs').1 ((walkedKeys_perm _ _).mem_iff.1 hk')
    cases hl.symm.trans hm
    cases hl'.symm.trans hm'
    have hkk : k = k' := by
      refine hapart k k' l l' ?_ ?_ (hf.trans (hff.symm.trans (hff'.trans hf'.symm)))
        (hn.trans (hline.trans hn'.symm))
      · rw [declarationOf_eq, hs]
        exact hl
      · rw [declarationOf_eq, hs']
        exact hl'
    subst hkk
    exact Option.some.inj (hb.symm.trans hb')

structure Indexed (t : SymbolTable) : Prop where
  tidy : t.Tidy
  plain : t.Plain

theorem Indexed.empty : ({} : SymbolTable).Indexed :=
  ⟨.empty, .empty⟩

theorem Indexed.putAll {t : SymbolTable} (h : t.Indexed) (es : List Entry) : (t.putAll es).Indexed :=
  ⟨h.tidy.putAll es, h.plain.putAll es⟩

theorem Below.shows [KeyOrder] {file : String} {number : Int} {t u : SymbolTable}
    (h : Below file number t u)
    (ht : t.Indexed) (hu : u.Indexed) (hapart : u.Apart) : Shows file number t u where
  parents accepts := h.parent? ht.tidy.consistent hu.tidy.consistent hapart accepts
  signatures k := h.signature_cases ht.plain hu.plain k
  values name _ hc := h.get?_cases ht.plain name hc

namespace Shows
variable {file : String} {number : Int} {t u : SymbolTable}

/-- The declaration above the line is the same symbol, or there is none in either table. -/
theorem parent?_cases [KeyOrder] (h : Shows file number t u) (accepts : Category → Bool) :
    (t.parent? file number accepts = none ∧ u.parent? file number accepts = none) ∨
    ∃ s s', t.parent? file number accepts = some s ∧ u.parent? file number accepts = some s' ∧
      s.name = s'.name ∧ s.extra = s'.extra := by
  have hp := h.parents accepts
  cases hs : t.parent? file number accepts with
  | none =>
    rw [hs] at hp
    exact .inl ⟨rfl, by simpa using hp.symm⟩
  | some s =>
    rw [hs] at hp
    obtain ⟨s', hs', he⟩ := Option.map_eq_some_iff.1 hp.symm
    have hn : s'.told.name = s.told.name := by rw [he]
    have hx : s'.told.extra = s.told.extra := by rw [he]
    exact .inr ⟨s, s', rfl, hs', hn.symm, hx.symm⟩

theorem signature_get?_cases [KeyOrder] (h : Shows file number t u) (name : String) (c : Category) :
    (t.get? name c).bind Symbol.signature = none ∨
      (t.get? name c).bind Symbol.signature = (u.get? name c).bind Symbol.signature := by
  unfold get?
  cases Symbol.key? name c with
  | none => exact .inl rfl
  | some k => exact h.signatures k

end Shows

end SymbolTable

end ScriptIndex
