import ScriptIndex.Proofs.FileReplacement
import ScriptIndex.Proofs.PassStates

/-! An index as a line of a file sees it before the rest of the file is there. It is cut out of the
finished index: what the file contributes from the line on is left out. As long as the finished index is
made by entries of the file, a line finds in the cut index what it finds while they are put in. -/
namespace ScriptIndex

namespace Symbol

def referencesBefore (file : String) (line : Int) (s : Symbol) : References :=
  s.references.alter file fun positions =>
    (positions.map fun positions => positions.filter fun p => p.line < line).filter
      fun positions => !positions.isEmpty

def declaredFrom (file : String) (line : Int) (s : Symbol) : Bool :=
  s.declaration.any fun l => fileKey? l.file == some file && line ≤ l.span.start.line

/-- A symbol without what a file contributes from some line on. Of one that is declared there only a name
is left, unless other files refer to it: then it keeps what its last declaration said. -/
def before (file : String) (line : Int) (s : Symbol) : Option Symbol :=
  let references := s.referencesBefore file line
  if references.isEmpty then none
  else if !s.declaredFrom file line then some { s with references := references }
  else if (s.references.erase file).isEmpty then
    some { bare s.name s.category with references := references, packId := s.packId }
  else some { s with references := references, declaration := none }

end Symbol

namespace SymbolTable

def before (t : SymbolTable) (file : String) (line : Int) : SymbolTable :=
  match fileKey? file with
  | none => t
  | some file =>
    let symbols := t.symbols.filterMap fun _ s => s.before file line
    { symbols := symbols
      files := t.files.modify file fun entry => { entry with
        declared := entry.declared.filter fun key =>
          (symbols[key]?).any fun s => s.declaration.isSome } }

def StoodBefore (t : SymbolTable) (file : String) (line : Int) (key : String) : Prop :=
  t.ReferredOutside file key ∨ ∃ p, t.Records key file p ∧ p.line < line

private theorem Consistent.declares_iff_known? {t : SymbolTable} (h : t.Consistent) {f k : String} :
    t.Declares f k ↔ ∃ s, t.known? k = some s ∧ s.declaredIn f = true := by
  rw [h.declares_iff]
  constructor
  · rintro ⟨s, hs, hd⟩
    obtain ⟨l, hl, -⟩ := (s.declaredIn_iff f).1 hd
    refine ⟨s.told, ?_, hd⟩
    rw [known?_of_declarationOf, toldOf, hs]
    · rfl
    · rw [declarationOf_of_some hs, hl]
      rfl
  · rintro ⟨s, hs, hd⟩
    obtain ⟨s', hs', rfl, -⟩ := known?_some hs
    exact ⟨s', hs', hd⟩

section
variable {t : SymbolTable} (h : t.Consistent) {f : String} {line : Int} {k : String} {s : Symbol}
  (hs : t.symbols[k]? = some s)
include h hs

private theorem stoodBefore_iff :
    t.StoodBefore f line k ↔ (s.referencesBefore f line).isEmpty = false := by
  have hrefs := referencesOf_of_some hs
  have hown : (s.referencesBefore f line)[f]? = ((s.references[f]?).map fun positions =>
      positions.filter fun p => p.line < line).filter fun positions => !positions.isEmpty := by
    rw [Symbol.referencesBefore, Std.ExtTreeMap.getElem?_alter_self]
  have hother {g : String} (hg : g ≠ f) : (s.referencesBefore f line)[g]? = s.references[g]? := by
    rw [Symbol.referencesBefore, Std.ExtTreeMap.getElem?_alter, if_neg]
    simpa using Ne.symm hg
  rw [Std.ExtTreeMap.isEmpty_eq_false_iff]
  constructor
  · intro hstood hempty
    rcases hstood with ⟨g, p, hg, ps, hp, -⟩ | ⟨p, ⟨ps, hp, hm⟩, hline⟩
    · have hleft := hother hg
      rw [← hrefs, hp, hempty] at hleft
      simp at hleft
    · rw [hempty, ← hrefs, hp] at hown
      have hfilter : p ∈ ps.filter fun p => decide (p.line < line) := by
        simp [Std.ExtTreeSet.mem_filter, hm, hline]
      have hne : (ps.filter fun p => decide (p.line < line)).isEmpty = false := by
        rw [← Bool.not_eq_true, Std.ExtTreeSet.isEmpty_iff]
        intro he
        simp [he] at hfilter
      simp [Option.filter, hne] at hown
  · intro hne
    obtain ⟨g, hg⟩ : ∃ g, g ∈ s.referencesBefore f line := by
      by_contra hnone
      exact hne (Std.ExtTreeMap.eq_empty_iff_forall_not_mem.2 fun g hg => hnone ⟨g, hg⟩)
    obtain ⟨ps, hps⟩ := Option.isSome_iff_exists.1 (Std.ExtTreeMap.mem_iff_isSome_getElem?.1 hg)
    by_cases hgf : g = f
    · subst hgf
      rw [hown] at hps
      obtain ⟨hps, hfull⟩ := Option.filter_eq_some_iff.1 hps
      obtain ⟨all, hall, rfl⟩ := Option.map_eq_some_iff.1 hps
      obtain ⟨p, hp⟩ : ∃ p, p ∈ all.filter fun p => decide (p.line < line) := by
        by_contra hnone
        rw [Std.ExtTreeSet.eq_empty_iff_forall_not_mem.2 fun p hp => hnone ⟨p, hp⟩] at hfull
        simp at hfull
      have hp : p ∈ all ∧ p.line < line := by
        simpa [Std.ExtTreeSet.mem_filter] using hp
      exact .inr ⟨p, ⟨all, by rw [hrefs, hall], hp.1⟩, hp.2⟩
    · rw [hother hgf] at hps
      obtain ⟨p, hp⟩ := records_of_referred h (k := k) (g := g) <| by
        rw [hrefs, Std.ExtTreeMap.mem_iff_isSome_getElem?, hps]
        rfl
      exact .inl ⟨g, p, hgf, hp⟩

private theorem before_eq_none (hstood : ¬ t.StoodBefore f line k) : s.before f line = none := by
  rw [stoodBefore_iff h hs, Bool.not_eq_false] at hstood
  rw [Symbol.before, if_pos hstood]

/-- A symbol that is not declared from the line on is told of as before. -/
private theorem before_of_not_declaredFrom (hstood : t.StoodBefore f line k)
    (hd : s.declaredFrom f line = false) : ∃ s', s.before f line = some s' ∧ s'.told = s.told := by
  rw [stoodBefore_iff h hs] at hstood
  refine ⟨{ s with references := s.referencesBefore f line }, ?_, rfl⟩
  rw [Symbol.before, if_neg (by simp [hstood]), if_pos (by simp [hd])]

private theorem before_of_referredOutside (hd : s.declaredFrom f line = true)
    (hout : t.ReferredOutside f k) :
    ∃ s', s.before f line = some s' ∧ s'.told = { s.told with declaration := none } := by
  have hstood : t.StoodBefore f line k := .inl hout
  rw [stoodBefore_iff h hs] at hstood
  rw [referredOutside_iff h hs] at hout
  refine ⟨{ s with references := s.referencesBefore f line, declaration := none }, ?_, rfl⟩
  rw [Symbol.before, if_neg (by simp [hstood]), if_neg (by simp [hd]), if_neg (by simp [hout])]

private theorem before_of_not_referredOutside (hstood : t.StoodBefore f line k)
    (hd : s.declaredFrom f line = true) (hout : ¬ t.ReferredOutside f k) :
    ∃ s', s.before f line = some s' ∧ s'.told = Symbol.bare s.name s.category := by
  rw [stoodBefore_iff h hs] at hstood
  rw [referredOutside_iff h hs, Bool.not_eq_false] at hout
  refine ⟨{ Symbol.bare s.name s.category with
    references := s.referencesBefore f line, packId := s.packId }, ?_, rfl⟩
  rw [Symbol.before, if_neg (by simp [hstood]), if_neg (by simp [hd]), if_pos hout]

private theorem declaredFrom_of_not_stoodBefore (hd : s.declaration.isSome = true)
    (hstood : ¬ t.StoodBefore f line k) : s.declaredFrom f line = true := by
  obtain ⟨l, hl⟩ := Option.isSome_iff_exists.1 hd
  obtain ⟨g, ps, hg, hp, hm⟩ := h.recorded k s l hs hl
  have hrecords : t.Records k g l.span.start := ⟨ps, by rw [referencesOf_of_some hs]; exact hp, hm⟩
  have hgf : g = f := by
    by_contra hne
    exact hstood (.inl ⟨g, _, hne, hrecords⟩)
  subst hgf
  have hline : line ≤ l.span.start.line := by
    by_contra hlt
    exact hstood (.inr ⟨_, hrecords, not_le.1 hlt⟩)
  simp [Symbol.declaredFrom, hl, hg, hline]

end

section
variable {t : SymbolTable} (h : t.Consistent) {file f : String} (hf : fileKey? file = some f)
  {line : Int} {k : String}
include hf

private theorem symbols_before (t : SymbolTable) (line : Int) (k : String) :
    (t.before file line).symbols[k]? = (t.symbols[k]?).bind (Symbol.before f line) := by
  unfold before
  rw [hf]
  exact Std.ExtTreeMap.getElem?_filterMap'

include h

/-- What is declared above the line, or in another file, is known. -/
private theorem known?_before :
    (t.before file line).known? k = (t.known? k).filter fun s => !s.declaredFrom f line := by
  rw [known?, toldOf, symbols_before hf, known?, toldOf]
  cases hs : t.symbols[k]? with
  | none => rfl
  | some s =>
    have htold : s.told.declaredFrom f line = s.declaredFrom f line := rfl
    rw [Option.bind_some, Option.map_some]
    by_cases hstood : t.StoodBefore f line k
    · cases hd : s.declaredFrom f line with
      | false =>
        obtain ⟨s', hs', he⟩ := before_of_not_declaredFrom h hs hstood hd
        rw [hs', Option.map_some, he]
        cases hdecl : s.told.declaration <;> simp [Option.filter, hdecl, htold, hd]
      | true =>
        have hright : ((some s.told).filter fun s => s.declaration.isSome).filter
            (fun s => !s.declaredFrom f line) = none := by
          cases hdecl : s.told.declaration <;> simp [Option.filter, hdecl, htold, hd]
        rw [hright]
        by_cases hout : t.ReferredOutside f k
        · obtain ⟨s', hs', he⟩ := before_of_referredOutside h hs hd hout
          rw [hs', Option.map_some, he]
          rfl
        · obtain ⟨s', hs', he⟩ := before_of_not_referredOutside h hs hstood hd hout
          rw [hs', Option.map_some, he]
          rfl
    · rw [before_eq_none h hs hstood]
      cases hd : s.told.declaration with
      | none => simp [Option.filter, hd]
      | some l =>
        have hfrom := declaredFrom_of_not_stoodBefore h hs (Option.isSome_of_mem hd) hstood
        simp [Option.filter, hd, htold, hfrom]

private theorem declares_before : (t.before file line).Declares f k ↔
    ∃ s, (t.before file line).known? k = some s ∧ s.declaredIn f = true := by
  have hdeclares : (t.before file line).Declares f k ↔
      t.Declares f k ∧ ((t.before file line).known? k).isSome = true := by
    have hsome : ((t.before file line).known? k).isSome =
        ((t.before file line).symbols[k]?).any fun s => s.declaration.isSome := by
      rw [known?, toldOf]
      cases (t.before file line).symbols[k]? with
      | none => rfl
      | some s => cases hd : s.declaration <;> simp [Option.filter, Symbol.told, hd]
    rw [hsome]
    unfold Declares before
    rw [hf]
    simp only [Std.ExtTreeMap.getElem?_modify_self]
    cases t.files[f]? <;> simp [Std.ExtTreeSet.mem_filter]
  rw [hdeclares, h.declares_iff_known?, known?_before h hf]
  constructor
  · rintro ⟨⟨s, hs, hd⟩, hsome⟩
    obtain ⟨s', hs'⟩ := Option.isSome_iff_exists.1 hsome
    obtain ⟨hs'', -⟩ := Option.filter_eq_some_iff.1 hs'
    cases hs.symm.trans hs''
    exact ⟨s, hs', hd⟩
  · rintro ⟨s, hs, hd⟩
    exact ⟨⟨s, (Option.filter_eq_some_iff.1 hs).1, hd⟩, by rw [hs]; rfl⟩

end

/-- Symbols of two tables under one key that no rule can tell apart: they are the same but for what
references leave with them, or neither is more than a name. -/
inductive Alike (t u : SymbolTable) (k : String) : Prop
  | same : t.toldOf k = u.toldOf k → Alike t u k
  | bare (name : String) (c : Category) (e : Entry) : t.toldOf k = some (Symbol.bare name c) →
      e.key? = some k → e.declares = false → u.toldOf k = some e.placeholder.told → Alike t u k

/-- A param or a column that a reference shows has no values. -/
private theorem extra_placeholder_eq_nil {e : Entry} {name k : String} {c : Category}
    (hc : c = .param ∨ c = .dbColumn) (hk : Symbol.key? name c = some k) (he : e.key? = some k)
    (hd : e.declares = false) : e.placeholder.extra = [] := by
  have hempty : ({} : SymbolTable).toldOf k = none := by simp [toldOf]
  have hknown : (({} : SymbolTable).put e).known? k = none := by
    rw [known?_put, if_neg (by simp [Entry.declaresKey, hd]), known?, hempty]
    rfl
  have htold : (({} : SymbolTable).put e).toldOf k = some e.placeholder.told := by
    rw [toldOf_put, if_pos he, hempty, hd]
    rfl
  obtain ⟨s, hs, hst⟩ := Option.map_eq_some_iff.1 htold
  have hextra := (Plain.empty.put e).extra_eq_nil hc hk hknown hs
  have hsame : s.told.extra = e.placeholder.told.extra := by rw [hst]
  exact hsame.symm.trans hextra

namespace Alike
variable {t u : SymbolTable} {k : String} (h : t.Alike u k)
include h

private theorem isSome_eq : (t.symbols[k]?).isSome = (u.symbols[k]?).isSome := by
  have hsome (t : SymbolTable) : (t.symbols[k]?).isSome = (t.toldOf k).isSome := by
    rw [toldOf, Option.isSome_map]
  rw [hsome, hsome]
  cases h with
  | same he => rw [he]
  | bare name c e ht _ _ hu => rw [ht, hu]; rfl

private theorem signature_eq :
    (t.symbols[k]?).bind Symbol.signature = (u.symbols[k]?).bind Symbol.signature := by
  have hsignature (t : SymbolTable) :
      (t.symbols[k]?).bind Symbol.signature = (t.toldOf k).bind Symbol.signature := by
    rw [toldOf]
    cases t.symbols[k]? <;> rfl
  rw [hsignature, hsignature]
  cases h with
  | same he => rw [he]
  | bare name c e ht _ _ hu =>
    rw [ht, hu]
    exact (Symbol.signature_placeholder _ _).symm

private theorem symbols_cases {name : String} {c : Category} (hc : c = .param ∨ c = .dbColumn)
    (hk : Symbol.key? name c = some k) :
    ((∀ s, t.symbols[k]? = some s → s.extra = []) ∧ ∀ s, u.symbols[k]? = some s → s.extra = []) ∨
      ∃ s s', t.symbols[k]? = some s ∧ u.symbols[k]? = some s' ∧ s.name = s'.name ∧
        s.extra = s'.extra := by
  cases h with
  | same he =>
    unfold toldOf at he
    cases ht : t.symbols[k]? with
    | none =>
      rw [ht] at he
      have hu : u.symbols[k]? = none := Option.map_eq_none_iff.1 he.symm
      simp [hu]
    | some s =>
      rw [ht] at he
      obtain ⟨s', hs', he⟩ := Option.map_eq_some_iff.1 he.symm
      have hn : s'.told.name = s.told.name := by rw [he]
      have hx : s'.told.extra = s.told.extra := by rw [he]
      exact .inr ⟨s, s', rfl, hs', hn.symm, hx.symm⟩
  | bare name' c' e ht he hd hu =>
    refine .inl ⟨fun s hs => ?_, fun s hs => ?_⟩
    · rw [toldOf, hs] at ht
      have hx : s.told.extra = (Symbol.bare name' c').extra := by rw [Option.some.inj ht]
      exact hx
    · rw [toldOf, hs] at hu
      have hx : s.told.extra = e.placeholder.told.extra := by rw [Option.some.inj hu]
      exact hx.trans (extra_placeholder_eq_nil hc hk he hd)

omit h in
/-- Params and columns in tables that are alike have the same values, or none. -/
private theorem get?_cases (h : ∀ k, t.Alike u k) (name : String) {c : Category}
    (hc : c = .param ∨ c = .dbColumn) :
    ((∀ s, t.get? name c = some s → s.extra = []) ∧ ∀ s, u.get? name c = some s → s.extra = []) ∨
      ∃ s s', t.get? name c = some s ∧ u.get? name c = some s' ∧ s.name = s'.name ∧
        s.extra = s'.extra := by
  unfold get?
  cases hk : Symbol.key? name c with
  | none => simp
  | some k => exact (h k).symbols_cases hc hk

end Alike

/-- Tables that know the same, and in which a file declares the same, have the same declaration above a
line. -/
private theorem parent?_congr [KeyOrder] {t u : SymbolTable} {file f : String} (hf : fileKey? file = some f)
    (hdeclares : ∀ k, t.Declares f k ↔ u.Declares f k) (hknown : ∀ k, t.known? k = u.known? k)
    (line : Int) (accepts : Category → Bool) :
    (t.parent? file line accepts).map Symbol.told = (u.parent? file line accepts).map Symbol.told := by
  have hkeys (t : SymbolTable) : t.walkedKeys file =
      KeyOrder.walk ((t.files[f]?.map FileKeys.declared).getD ∅) := by
    unfold walkedKeys keysOf?
    rw [hf, Option.bind_some]
    cases t.files[f]? with
    | some entry => rfl
    | none => exact ((KeyOrder.walk_perm ∅).eq_nil).symm
  have hdeclared : (t.files[f]?.map FileKeys.declared).getD ∅ =
      (u.files[f]?.map FileKeys.declared).getD ∅ := by
    have hmem (t : SymbolTable) (k : String) :
        k ∈ (t.files[f]?.map FileKeys.declared).getD ∅ ↔ t.Declares f k := by
      unfold Declares
      cases t.files[f]? <;> simp
    exact Std.ExtTreeSet.ext_mem fun k => by rw [hmem, hmem, hdeclares]
  have hcandidates : t.candidate? line accepts = u.candidate? line accepts := by
    funext k
    rw [candidate?, candidate?, hknown]
  rw [parent?_told_eq, parent?_told_eq, hkeys, hkeys, hdeclared, hcandidates]

/-- A table to which a file contributes entries, part of them above some line and the others from there
on. -/
structure MadeBy (t : SymbolTable) (file f : String) (line : Int) (above below : List Entry) : Prop where
  key : fileKey? file = some f
  tidy : t.Tidy
  before : ∀ e ∈ above, e.file = f ∧ e.position.line < line
  behind : ∀ e ∈ below, e.file = f ∧ line ≤ e.position.line
  made : (t.clearFile file).putAll (above ++ below) = t

namespace MadeBy
variable {t : SymbolTable} {file f : String} {line : Int} {above below : List Entry}
  (h : t.MadeBy file f line above below)
include h

omit h in
private theorem declaredFrom_declared {e : Entry} (he : e.file = f) :
    e.declared.told.declaredFrom f line = decide (line ≤ e.position.line) := by
  have hfile : fileKey? e.location.file = some f := e.fileKey?_eq.trans (congrArg some he)
  have hdeclaration : e.declared.told.declaration = some e.location := e.declared_declaration
  simp only [Symbol.declaredFrom, hdeclaration, Option.any_some, hfile, BEq.rfl, Bool.true_and]
  rfl

/-- While the file is put in, that much is known of it. -/
private theorem known?_putAll_above (k : String) : ((t.clearFile file).putAll above).known? k =
    (t.known? k).filter fun s => !s.declaredFrom f line := by
  have hknown := known?_putAll (t.clearFile file) (above ++ below) k
  rw [h.made, List.find?_append] at hknown
  rw [known?_putAll, hknown, known?_clearFile h.tidy.consistent h.key]
  cases hout : (t.known? k).filter fun s => !s.declaredIn f with
  | some s =>
    obtain ⟨-, hd⟩ := Option.filter_eq_some_iff.1 hout
    have hfrom : s.declaredFrom f line = false := by
      unfold Symbol.declaredIn at hd
      unfold Symbol.declaredFrom
      cases hl : s.declaration with
      | none => rfl
      | some l =>
        rw [hl] at hd
        simp only [Option.any_some, Bool.not_eq_true'] at hd
        simp [hd]
    simp [Option.filter, hfrom]
  | none =>
    rw [Option.none_or, Option.none_or]
    cases ha : above.find? (Entry.declaresKey k) with
    | some e =>
      obtain ⟨hfile, hline⟩ := h.before e (List.mem_of_find?_eq_some ha)
      simp [Option.filter, declaredFrom_declared hfile, hline]
    | none =>
      rw [Option.none_or]
      cases hb : below.find? (Entry.declaresKey k) with
      | none => rfl
      | some e =>
        obtain ⟨hfile, hline⟩ := h.behind e (List.mem_of_find?_eq_some hb)
        simp [Option.filter, declaredFrom_declared hfile, hline]

/-- The symbols that stand elsewhere or above the line are those that stand elsewhere and those that the
entries above the line are about. -/
private theorem stoodBefore_iff_mem (k : String) :
    t.StoodBefore f line k ↔ t.ReferredOutside f k ∨ ∃ e ∈ above, e.key? = some k := by
  have hrecords (p : Position) :=
    (records_putAll : ((t.clearFile file).putAll (above ++ below)).Records k f p ↔ _)
  rw [h.made] at hrecords
  constructor
  · rintro (hout | ⟨p, hp, hline⟩)
    · exact .inl hout
    · have hmem {e : Entry} (he : e ∈ above ++ below) (hp : e.position = p) : e ∈ above := by
        rcases List.mem_append.1 he with he | he
        · exact he
        · have hle := (h.behind e he).2
          rw [hp] at hle
          exact absurd hline (not_lt.2 hle)
      rcases (hrecords p).1 hp with hp | ⟨e, he, -, hk, -, hp⟩ | ⟨-, e, he, -, hp⟩
      · exact absurd rfl ((records_clearFile h.tidy.consistent h.key).1 hp).1
      · exact .inr ⟨e, hmem he hp, hk⟩
      · have hd : e.declares = true ∧ e.key? = some k := by
          simpa [Entry.declaresKey] using List.find?_some he
        exact .inr ⟨e, hmem (List.mem_of_find?_eq_some he) hp, hd.2⟩
  · rintro (hout | ⟨e, he, hk⟩)
    · exact .inl hout
    · cases hd : e.declares with
      | false =>
        obtain ⟨hfile, hline⟩ := h.before e he
        exact .inr ⟨e.position, (hrecords _).2
          (.inr (.inl ⟨e, List.mem_append_left _ he, hd, hk, hfile, rfl⟩)), hline⟩
      | true =>
        -- The first declaration is recorded, if it is not that of another file.
        by_cases hout : t.DeclaredOutside f k
        · exact .inl (h.tidy.consistent.referredOutside hout)
        · obtain ⟨e', he'⟩ := Option.isSome_iff_exists.1 (List.find?_isSome.2
            ⟨e, he, show e.declaresKey k = true by simp [Entry.declaresKey, hd, hk]⟩)
          obtain ⟨hfile, hline⟩ := h.before e' (List.mem_of_find?_eq_some he')
          refine .inr ⟨e'.position, (hrecords _).2 (.inr (.inr ⟨?_, e', ?_, hfile, rfl⟩)), hline⟩
          · exact known?_clearFile_of_not_declaredOutside h.tidy.consistent h.key hout
          · rw [List.find?_append, he', Option.some_or]

/-- What is told of a symbol that stood before the line, in terms of the entries. -/
private theorem toldOf_putAll_above (k : String) : ((t.clearFile file).putAll above).toldOf k =
    ((t.known? k).filter fun s => !s.declaredFrom f line).or
      (((t.clearFile file).toldOf k).or
        ((above.find? fun e => e.key? == some k).map fun e => e.placeholder.told)) := by
  rw [toldOf_putAll, h.known?_putAll_above]

omit h in
private theorem exists_find?_key {es : List Entry} {e : Entry} {k : String} (he : e ∈ es)
    (hk : e.key? = some k) :
    ∃ e', es.find? (fun e => e.key? == some k) = some e' ∧ e' ∈ es ∧ e'.key? = some k := by
  obtain ⟨e', he'⟩ := Option.isSome_iff_exists.1
    ((List.find?_isSome (p := fun e : Entry => e.key? == some k)).2 ⟨e, he, by simp [hk]⟩)
  exact ⟨e', he', List.mem_of_find?_eq_some he', by simpa using List.find?_some he'⟩

omit h in
private theorem known?_filter_eq_none {k : String} {s : Symbol} (hs : t.symbols[k]? = some s)
    (hd : s.declaredFrom f line = true) :
    (t.known? k).filter (fun s => !s.declaredFrom f line) = none := by
  have hfrom : s.told.declaredFrom f line = true := hd
  rw [known?, toldOf, hs, Option.map_some]
  cases hl : s.told.declaration <;> simp [Option.filter, hl, hfrom]

omit h in
private theorem symbols_of_stoodBefore {k : String}
    (hstood : t.StoodBefore f line k) : ∃ s, t.symbols[k]? = some s := by
  obtain ⟨g, p, ps, hp, -⟩ : ∃ g p, t.Records k g p := by
    rcases hstood with ⟨g, p, -, hp⟩ | ⟨p, hp, -⟩
    · exact ⟨g, p, hp⟩
    · exact ⟨f, p, hp⟩
  cases hs : t.symbols[k]? with
  | none => simp [referencesOf, hs] at hp
  | some s => exact ⟨s, rfl⟩

/-- A symbol that is declared from the line on is not declared before, and is what other files left of it,
or a name. -/
private theorem alike_of_declaredFrom {k : String} {s : Symbol} (hs : t.symbols[k]? = some s)
    (hstood : t.StoodBefore f line k) (hd : s.declaredFrom f line = true) :
    Alike (t.before file line) ((t.clearFile file).putAll above) k := by
  have hc := h.tidy.consistent
  have hcut := symbols_before h.key t line k
  have hput := h.toldOf_putAll_above k
  have hknown := known?_filter_eq_none hs hd
  rw [hs, Option.bind_some] at hcut
  rw [hknown, Option.none_or] at hput
  by_cases hout : t.ReferredOutside f k
  · obtain ⟨s', hs', he⟩ := before_of_referredOutside hc hs hd hout
    have hin : s.told.declaredIn f = true := by
      unfold Symbol.declaredFrom at hd
      unfold Symbol.declaredIn
      cases hl : s.declaration with
      | none => simp [hl] at hd
      | some l =>
        have hl' : s.told.declaration = some l := hl
        rw [hl, Option.any_some, Bool.and_eq_true] at hd
        rw [hl', Option.any_some, hd.1]
    refine .same ?_
    rw [hput, toldOf_clearFile_of_referredOutside hc h.key hout, toldOf, hcut, hs', toldOf, hs,
      Option.map_some, Option.map_some, Option.map_some, Option.some_or, he, Symbol.outside, if_pos hin]
  · obtain ⟨s', hs', he⟩ := before_of_not_referredOutside hc hs hstood hd hout
    obtain ⟨e, hmem, hk⟩ := ((h.stoodBefore_iff_mem k).1 hstood).resolve_left hout
    obtain ⟨e', he', hmem', hk'⟩ := exists_find?_key hmem hk
    refine .bare s.name s.category e' ?_ hk' ?_ ?_
    · rw [toldOf, hcut, hs', Option.map_some, he]
    · rw [← Bool.not_eq_true]
      intro hd'
      have hsome := known?_isSome_of_mem (t := t.clearFile file) hmem' (k := k)
        (by simp [Entry.declaresKey, hd', hk'])
      rw [h.known?_putAll_above, hknown] at hsome
      cases hsome
    · rw [hput, toldOf_clearFile_of_not_referredOutside hc h.key hout, he', Option.none_or,
        Option.map_some]

/-- A symbol that is not declared from the line on is told of already as it is in the end. -/
private theorem toldOf_putAll_above_eq {k : String} {s : Symbol} (hs : t.symbols[k]? = some s)
    (hstood : t.StoodBefore f line k) (hd : s.declaredFrom f line = false) :
    ((t.clearFile file).putAll above).toldOf k = some s.told := by
  have hc := h.tidy.consistent
  have htold : t.toldOf k = some s.told := by rw [toldOf, hs]; rfl
  rw [h.toldOf_putAll_above]
  cases hk : t.known? k with
  | some x =>
    obtain ⟨hx, -⟩ := Option.filter_eq_some_iff.1 hk
    cases htold.symm.trans hx
    have hfrom : s.told.declaredFrom f line = false := hd
    simp [Option.filter, hfrom]
  | none =>
    have hfinal := toldOf_putAll (t.clearFile file) (above ++ below) k
    rw [h.made, hk, htold, Option.none_or, List.find?_append] at hfinal
    rw [hfinal]
    cases hleft : (t.clearFile file).toldOf k with
    | some x => rfl
    | none =>
      have hout : ¬ t.ReferredOutside f k := by
        intro hout
        rw [toldOf_clearFile_of_referredOutside hc h.key hout, htold] at hleft
        cases hleft
      obtain ⟨e, hmem, hek⟩ := ((h.stoodBefore_iff_mem k).1 hstood).resolve_left hout
      obtain ⟨e', he', -⟩ := exists_find?_key hmem hek
      rw [he']
      rfl

/-- What is cut out of the finished table is what there is while the file is put in. -/
theorem alike (k : String) : Alike (t.before file line) ((t.clearFile file).putAll above) k := by
  have hc := h.tidy.consistent
  have hcut := symbols_before h.key t line k
  by_cases hstood : t.StoodBefore f line k
  · obtain ⟨s, hs⟩ := symbols_of_stoodBefore hstood
    rw [hs, Option.bind_some] at hcut
    cases hd : s.declaredFrom f line with
    | true => exact h.alike_of_declaredFrom hs hstood hd
    | false =>
      obtain ⟨s', hs', he⟩ := before_of_not_declaredFrom hc hs hstood hd
      refine .same ?_
      rw [h.toldOf_putAll_above_eq hs hstood hd, toldOf, hcut, hs', Option.map_some, he]
  · -- Neither table has the symbol.
    obtain ⟨hout, hmem⟩ := not_or.1 (mt (h.stoodBefore_iff_mem k).2 hstood)
    have hnone : (above.find? fun e => e.key? == some k) = none :=
      List.find?_eq_none.2 fun e he hk => hmem ⟨e, he, by simpa using hk⟩
    have hknown : (t.known? k).filter (fun s => !s.declaredFrom f line) = none := by
      cases hk : t.known? k with
      | none => rfl
      | some x =>
        obtain ⟨s, hs, rfl, hsome⟩ := known?_some hk
        rw [← hk]
        exact known?_filter_eq_none hs (declaredFrom_of_not_stoodBefore hc hs hsome hstood)
    refine .same ?_
    rw [h.toldOf_putAll_above, hknown, hnone, toldOf_clearFile_of_not_referredOutside hc h.key hout,
      toldOf, hcut]
    cases hs : t.symbols[k]? with
    | none => rfl
    | some s => rw [Option.bind_some, before_eq_none hc hs hstood]; rfl

/-- The finished table, cut at the line, and the table while the file is put in show each other the same on
the line. -/
theorem shows [KeyOrder] :
    Shows file line (t.before file line) ((t.clearFile file).putAll above) ∧
      Shows file line ((t.clearFile file).putAll above) (t.before file line) := by
  have hc := h.tidy.consistent
  have hknown (k : String) :
      (t.before file line).known? k = ((t.clearFile file).putAll above).known? k := by
    rw [known?_before hc h.key, h.known?_putAll_above]
  have hdeclares (k : String) : (t.before file line).Declares f k ↔
      ((t.clearFile file).putAll above).Declares f k := by
    rw [declares_before hc h.key, hknown,
      ((h.tidy.clearFile file).putAll above).consistent.declares_iff_known?]
  have hparent := parent?_congr h.key hdeclares hknown line
  have hvalues (name : String) {c : Category} (hcategory : c = .param ∨ c = .dbColumn) :=
    Alike.get?_cases h.alike name hcategory
  refine ⟨⟨hparent, fun k => .inr (h.alike k).signature_eq, fun name c hcategory => ?_⟩,
    fun accepts => (hparent accepts).symm, fun k => .inr (h.alike k).signature_eq.symm,
    fun name c hcategory => ?_⟩
  · exact (hvalues name hcategory).imp_left And.left
  · rcases hvalues name hcategory with ⟨-, hu⟩ | ⟨s, s', hs, hs', hn, hx⟩
    · exact .inl hu
    · exact .inr ⟨s', s, hs', hs, hn.symm, hx.symm⟩

end MadeBy

end SymbolTable

/-- Indices that have symbols alike have the same commands. -/
theorem Rule.command?_congr {i j : Index} (h : ∀ k, i.symbols.Alike j.symbols k) (ctx : WordContext) :
    Rule.command? ctx i = Rule.command? ctx j := by
  suffices hc : Rules.command ctx i = Rules.command ctx j by
    unfold Rule.command?
    rw [hc]
  unfold Rules.command SymbolTable.get?
  cases Symbol.key? ctx.word.value .command with
  | none => rfl
  | some k =>
    have hsome := (h k).isSome_eq
    have hsignature := (h k).signature_eq
    simp only [Option.bind_some]
    cases hi : i.symbols.symbols[k]? with
    | none =>
      rw [hi] at hsome
      have hj : j.symbols.symbols[k]? = none := Option.not_isSome_iff_eq_none.1 (by simp [← hsome])
      rw [hj]
    | some s =>
      rw [hi] at hsome hsignature
      obtain ⟨s', hs'⟩ := Option.isSome_iff_exists.1 hsome.symm
      rw [hs'] at hsignature
      rw [hs']
      have hsame : s.signature = s'.signature := hsignature
      simp only [hsame]

end ScriptIndex
