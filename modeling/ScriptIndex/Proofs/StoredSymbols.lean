import ScriptIndex.Proofs.Classification
import ScriptIndex.Proofs.WorkspaceRuns

namespace ScriptIndex

def Entry.Classified (e : Entry) : Prop :=
  ∃ (_ : KeyOrder) (ctx : WordContext) (i : Index), Rule.classify ctx i = some e.found.role

private theorem Index.classified_of_mem_found [KeyOrder] {i : Index} {l : FileLine} {e : Entry}
    (he : e ∈ i.found l) :
    e.Classified := by
  obtain ⟨w, -, hw⟩ := List.mem_filterMap.1 he
  exact ⟨_, _, _, (entryOf?_eq_some.1 hw).2.2.2.1⟩

namespace SymbolTable

def Every (P : String → Symbol → Prop) (t : SymbolTable) : Prop :=
  ∀ key s, t.toldOf key = some s → P key s

structure Lasting (P : String → Symbol → Prop) : Prop where
  declared : ∀ (e : Entry) (key : String), e.Classified → e.key? = some key → e.declares = true →
    P key e.declared.told
  mentioned : ∀ (e : Entry) (key : String), e.Classified → e.key? = some key →
    P key e.placeholder.told
  undeclared : ∀ (key : String) (s : Symbol), P key s → P key { s with declaration := none }

namespace Lasting
variable {P : String → Symbol → Prop} (hP : Lasting P) {t : SymbolTable}
include hP

private theorem put (h : t.Every P) {e : Entry} (he : e.Classified) : (t.put e).Every P := by
  intro key s hs
  rw [toldOf_put] at hs
  split at hs
  · rename_i hkey
    have hs := Option.some.inj hs
    split at hs
    · rename_i hdeclares
      cases hk : t.known? key with
      | none =>
        rw [hk] at hs
        exact hs ▸ hP.declared e key he hkey hdeclares
      | some old =>
        rw [hk] at hs
        exact hs ▸ h key old (Option.filter_eq_some_iff.1 hk).1
    · cases ht : t.toldOf key with
      | none =>
        rw [ht] at hs
        exact hs ▸ hP.mentioned e key he hkey
      | some old =>
        rw [ht] at hs
        exact hs ▸ h key old ht
  · exact h key s hs

private theorem putAll (h : t.Every P) {es : List Entry} (he : ∀ e ∈ es, e.Classified) :
    (t.putAll es).Every P := by
  induction es generalizing t with
  | nil => exact h
  | cons e es ih =>
    obtain ⟨he, hes⟩ := List.forall_mem_cons.1 he
    exact ih (hP.put h he) hes

private theorem clearFile (h : t.Every P) (hc : t.Consistent) (file : String) :
    (t.clearFile file).Every P := by
  intro key s hs
  cases hf : fileKey? file with
  | none =>
    rw [clearFile_of_no_key hf] at hs
    exact h key s hs
  | some f =>
    obtain ⟨left, hleft, rfl⟩ := Option.map_eq_some_iff.1 hs
    rw [hc.symbols_clearFile hf] at hleft
    obtain ⟨old, hold, hleft⟩ := Option.bind_eq_some_iff.1 hleft
    have hP' : P key old.told := h key old.told (Option.map_eq_some_iff.2 ⟨old, hold, rfl⟩)
    rw [without_eq_some hleft]
    by_cases hd : old.declaredIn f = true
    · rw [if_pos hd]
      exact hP.undeclared key old.told hP'
    · rw [if_neg hd]
      exact hP'

theorem next [KeyOrder] {i : Index} (h : i.symbols.Every P) (l : FileLine) :
    (i.next l).symbols.Every P := by
  rw [Index.symbols_next]
  exact hP.putAll h fun e he => Index.classified_of_mem_found he

private theorem after [KeyOrder] {i : Index} (h : i.symbols.Every P) (ls : List FileLine) :
    (i.after ls).symbols.Every P := by
  induction ls generalizing i with
  | nil => exact h
  | cons l ls ih => exact ih (hP.next h l)

/-- What lasts holds of every symbol in every reachable workspace. -/
theorem reachable {w : Workspace} (hw : w.Reachable) : w.index.symbols.Every P := by
  have hkept : Workspace.Kept fun i => i.symbols.Consistent ∧ i.symbols.Every P := {
    empty := ⟨.empty, fun key s hs => by simp [toldOf] at hs⟩
    scripts := fun i s hi => hi
    file := fun file => {
      clearFile := fun i hi => ⟨hi.1.clearFile file, hP.clearFile hi.2 hi.1 file⟩
      parse := fun i j text hi hj => by
        refine ⟨Index.parse_consistent hi.1 hj, ?_⟩
        rw [i.parse_eq] at hj
        exact Except.ok.inj hj ▸ hP.after hi.2 _ } }
  exact (hkept.reachable hw).2

end Lasting

end SymbolTable

end ScriptIndex
