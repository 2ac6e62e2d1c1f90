import ScriptIndex.Proofs.DeclaringWords
import ScriptIndex.Proofs.NearestDeclaration
import ScriptIndex.Proofs.StoredSymbols

/-! The values that are kept with symbols. Each is a text or nothing, and under one name only there is a
list, of texts; so what one line has left with a symbol can be read on any other. -/
namespace ScriptIndex

inductive KeptValue : String × Datum → Prop where
  | nothing {name : String} : name ≠ "dataTypes" → KeptValue (name, .null)
  | text (name s : String) : KeptValue (name, .text s)
  | fieldTypes (types : List String) : KeptValue ("dataTypes", .list (types.map .text))

def KeptValues (extra : Attributes) : Prop :=
  ∀ v ∈ extra, KeptValue v

namespace KeptValues
variable {extra : Attributes}

theorem nil : KeptValues [] :=
  nofun

theorem of_lookup (h : KeptValues extra) {name : String} {value : Datum}
    (hv : extra.lookup name = some value) : KeptValue (name, value) := by
  obtain ⟨before, after, rfl, -⟩ := List.lookup_eq_some_iff.1 hv
  exact h _ (List.mem_append_right before List.mem_cons_self)

/-- Under every name but one there is a text or nothing. -/
theorem plain (h : KeptValues extra) {name : String}
    (hn : name ≠ "dataTypes") :
    (extra.lookup name).getD .null = .null ∨ ∃ s, (extra.lookup name).getD .null = .text s := by
  cases hv : extra.lookup name with
  | none => exact .inl rfl
  | some value =>
    cases h.of_lookup hv with
    | nothing _ => exact .inl rfl
    | text _ s => exact .inr ⟨s, rfl⟩
    | fieldTypes types => exact absurd rfl hn

end KeptValues

/-- Whatever rule has an answer, the values that it leaves with the word are kept as they should be: the rule
for headers leaves texts, and no other leaves any. -/
theorem Rule.classify_keepsValues [KeyOrder] {ctx : WordContext} {i : Index} {r : Role}
    (h : classify ctx i = some r) : KeptValues r.extra := by
  cases gives_of_classify h with
  | reference c => exact KeptValues.nil
  | command hr => rcases Rules.command_eq_some hr with rfl | ⟨rfl, -⟩ <;> exact KeptValues.nil
  | localVar hr => rcases Rules.localVar_eq_some hr with rfl | rfl <;> exact KeptValues.nil
  | sigil hr => rcases Rules.sigil_eq_some hr with ⟨c, rfl⟩ | ⟨rfl, -⟩ <;> exact KeptValues.nil
  | trigger hr =>
    obtain ⟨-, ⟨script, rfl⟩ | ⟨target, name, rfl⟩ | ⟨-, name, found, -, rfl⟩⟩ :=
      Rules.trigger_eq_some hr
    · exact List.forall_mem_singleton.2 (.text _ _)
    · exact List.forall_mem_cons.2 ⟨.text _ _, List.forall_mem_singleton.2 (.text _ _)⟩
    · exact KeptValues.nil
  | config hr =>
    obtain ⟨c, rfl⟩ | ⟨c, -, rfl⟩ | ⟨-, key, slots, slot, -, -, rfl⟩ := Rules.config_eq_some hr <;>
      exact KeptValues.nil

namespace Symbol

private theorem keptValue_lineBehind? (mark block : String) {name : String} (hn : name ≠ "dataTypes") :
    KeptValue (name, ((lineBehind? mark block).map Datum.text).getD .null) := by
  cases lineBehind? mark block with
  | none => exact .nothing hn
  | some s => exact .text _ s

/-- What the name and the code of a symbol say is kept as it should be; the rest stays as it was. -/
private theorem describe_keepsValues {s t : Symbol} (hs : KeptValues s.extra) (h : s.describe = .ok t) :
    KeptValues t.extra := by
  unfold describe at h
  split at h
  · obtain ⟨value, rfl⟩ := describeCoordinate_eq_ok h
    exact hs
  · obtain ⟨info, rfl⟩ := describeTrigger_eq_ok h
    exact hs
  · cases h
    exact List.forall_mem_cons.2 ⟨keptValue_lineBehind? _ _ (by decide),
      List.forall_mem_singleton.2 (keptValue_lineBehind? _ _ (by decide))⟩
  · cases h
    exact List.forall_mem_singleton.2 (.text _ _)
  · cases h
    unfold describeConfigKey
    split <;> exact hs
  · cases h
    exact hs
  · cases h
    unfold describeRow
    split
    · exact hs
    · exact hs
    · exact List.forall_mem_singleton.2 (.text _ _)
  · cases h
    unfold describeColumn
    dsimp only
    split
    · exact hs
    · exact hs
    · exact List.forall_mem_singleton.2 (.fieldTypes _)
  · cases h
    obtain ⟨info, value, he⟩ := describeReference_eq s
    rw [he]
    exact hs

private theorem declared_keepsValues {name : String} {role : Role} {location : Location}
    {excerpt : Option Excerpt} {s : Symbol} (hr : KeptValues role.extra)
    (h : declared name role location excerpt = .ok s) : KeptValues s.extra := by
  unfold declared at h
  dsimp only at h
  split at h
  · obtain ⟨read, hread, h⟩ := bind_eq_ok.1 h
    obtain ⟨info, signature, block, rfl⟩ := readExcerpt_eq_ok hread
    exact describe_keepsValues hr h
  · obtain ⟨read, hread, h⟩ := bind_eq_ok.1 h
    cases hread
    exact describe_keepsValues hr h

private theorem placeholder_keepsValues (name : String) {role : Role} (hr : KeptValues role.extra) :
    KeptValues (placeholder name role).extra := by
  unfold placeholder
  split
  · obtain ⟨info, value, he⟩ :=
      describeReference_eq { bare name role.category with extra := role.extra }
    rw [he]
    exact hr
  · exact KeptValues.nil

end Symbol

private theorem Entry.declared_keepsValues {e : Entry} (h : KeptValues e.found.role.extra) :
    KeptValues e.declared.extra :=
  Symbol.declared_keepsValues h e.declared_eq

namespace SymbolTable

def KeepsValues (t : SymbolTable) : Prop :=
  ∀ (key : String) (s : Symbol), t.symbols[key]? = some s → KeptValues s.extra

private theorem keepsValues_iff {t : SymbolTable} :
    t.KeepsValues ↔ t.Every fun _ s => KeptValues s.extra := by
  constructor
  · intro h key s hs
    obtain ⟨s, hstored, rfl⟩ := Option.map_eq_some_iff.1 hs
    exact h key s hstored
  · exact fun h key s hs => h key s.told (Option.map_eq_some_iff.2 ⟨s, hs, rfl⟩)

private theorem lasting_keptValues : Lasting fun _ s => KeptValues s.extra where
  declared e _ he _ _ := by
    obtain ⟨_, ctx, i, hr⟩ := he
    exact Entry.declared_keepsValues (Rule.classify_keepsValues hr)
  mentioned e _ he _ := by
    obtain ⟨_, ctx, i, hr⟩ := he
    exact Symbol.placeholder_keepsValues e.found.word (Rule.classify_keepsValues hr)
  undeclared _ _ h := h

namespace KeepsValues
variable {t : SymbolTable} (h : t.KeepsValues)
include h

theorem get? {name : String} {c : Category} {s : Symbol} (hs : t.get? name c = some s) :
    KeptValues s.extra := by
  obtain ⟨key, -, hs⟩ := Option.bind_eq_some_iff.1 hs
  exact h key s hs

theorem parent? [KeyOrder] {file : String} {line : Int} {accepts : Category → Bool} {s : Symbol}
    (hs : t.parent? file line accepts = some s) : KeptValues s.extra := by
  obtain ⟨key, hs⟩ := exists_key_of_parent? hs
  exact h key s hs

end KeepsValues

end SymbolTable

theorem Index.next_keepsValues [KeyOrder] {i : Index} (h : i.symbols.KeepsValues) (l : FileLine) :
    (i.next l).symbols.KeepsValues :=
  SymbolTable.keepsValues_iff.2 (SymbolTable.lasting_keptValues.next (SymbolTable.keepsValues_iff.1 h) l)

/-- In every reachable workspace the symbols hold values as they are kept. -/
theorem Workspace.Reachable.keepsValues {w : Workspace} (hw : w.Reachable) :
    w.index.symbols.KeepsValues :=
  SymbolTable.keepsValues_iff.2 (SymbolTable.lasting_keptValues.reachable hw)

end ScriptIndex
