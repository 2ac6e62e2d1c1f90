import ScriptIndex.Proofs.DeclaringWords
import ScriptIndex.Proofs.SharedKeys
import ScriptIndex.Proofs.StoredSymbols

namespace ScriptIndex

/-- Every category is registered with its own profile. -/
theorem Registry.standard_profile (c : Category) :
    standard.profiles[c.id]? = some c.profile := by
  have hall : ∀ c ∈ Category.all, standard.profiles[c.id]? = some c.profile := by decide +kernel
  exact hall c (Category.mem_all c)

namespace Rules
variable {ctx : WordContext} {r : Role}

private theorem trigger_declarable (h : trigger ctx = some r) (hd : r.declares = true) :
    r.category.profile.referenceOnly = false := by
  obtain ⟨-, -, name, found, hfound, hdeclares, hc⟩ := trigger_declares h hd
  have hall : ∀ p ∈ Trigger.table, p.2.declares = true →
      p.2.category.profile.referenceOnly = false := by decide
  obtain ⟨front, back, htable, -⟩ := List.lookup_eq_some_iff.1 hfound
  rw [hc]
  exact hall (Text.lower name, found) (by rw [htable]; simp) hdeclares

private theorem config_declarable [KeyOrder] {i : Index} (h : config ctx i = some r)
    (hd : r.declares = true) :
    r.category.profile.referenceOnly = false := by
  rcases config_declares_cases h hd with hc | ⟨-, hc⟩
  · obtain ⟨front, back, htable, -⟩ := List.lookup_eq_some_iff.1 hc
    have hall : ∀ p ∈ front ++ (ctx.dialect, r.category) :: back,
        p.2.profile.referenceOnly = false := by
      rw [← htable]
      decide
    exact hall (ctx.dialect, r.category) (by simp)
  · rw [hc]
    decide

end Rules

/-- Whatever rule says that a word declares something, symbols of that category may be declared. -/
theorem Rule.classify_declarable [KeyOrder] {ctx : WordContext} {i : Index} {r : Role}
    (h : classify ctx i = some r) (hd : r.declares = true) :
    r.category.profile.referenceOnly = false := by
  cases gives_of_classify h with
  | reference c => cases hd
  | command hr => rcases Rules.command_eq_some hr with rfl | ⟨rfl, -⟩ <;> rfl
  | localVar hr => rcases Rules.localVar_eq_some hr with rfl | rfl <;> rfl
  | sigil hr =>
    rw [(Rules.sigil_declares hr hd).1]
    rfl
  | trigger hr => exact Rules.trigger_declarable hr hd
  | config hr => exact Rules.config_declarable hr hd

/-- Whether a symbol is stored under a key as its category has it. -/
structure Symbol.Filed (key : String) (s : Symbol) : Prop where
  cached : s.category.profile.cached = true
  suffix : s.category.id.toList <:+ key.toList
  undeclared : s.category.profile.referenceOnly = true → s.declaration = none

namespace Entry
variable {e : Entry}

private theorem id_suffix {key : String} (hkey : e.key? = some key) :
    e.found.role.category.id.toList <:+ key.toList := by
  unfold key? Symbol.key? at hkey
  split at hkey
  · cases hkey
  · rw [← Option.some.inj hkey, String.toList_append]
    exact List.suffix_append _ _

private theorem filed_declared (he : e.Classified) {key : String} (hkey : e.key? = some key)
    (hd : e.declares = true) : e.declared.Filed key := by
  obtain ⟨hcategory, -⟩ := Symbol.declared_places e.declared_eq
  obtain ⟨_, ctx, i, hr⟩ := he
  refine ⟨hcategory ▸ e.cached, hcategory ▸ id_suffix hkey, fun honly => ?_⟩
  rw [hcategory, Rule.classify_declarable hr hd] at honly
  cases honly

private theorem filed_placeholder {key : String} (hkey : e.key? = some key) : e.placeholder.Filed key := by
  obtain ⟨hcategory, -, hdeclaration, -⟩ := Symbol.placeholder_places e.found.word e.found.role
  exact ⟨hcategory ▸ e.cached, hcategory ▸ id_suffix hkey, fun _ => hdeclaration⟩

end Entry

namespace SymbolTable

private theorem lasting_filed : Lasting Symbol.Filed where
  declared _ _ he hkey hd := by
    have hf := Entry.filed_declared he hkey hd
    exact ⟨hf.cached, hf.suffix, hf.undeclared⟩
  mentioned _ _ _ hkey := by
    have hf := Entry.filed_placeholder hkey
    exact ⟨hf.cached, hf.suffix, hf.undeclared⟩
  undeclared _ _ hf := ⟨hf.cached, hf.suffix, fun _ => rfl⟩

end SymbolTable

namespace Workspace

/-- In every reachable workspace a stored symbol is of a registered category whose symbols are kept, its
key ends with the name of the category, and it is not declared where the category is only referred to. -/
theorem Reachable.stored_category {w : Workspace} (hw : w.Reachable) {key : String} {s : Symbol}
    (hs : w.index.symbols.symbols[key]? = some s) :
    ∃ p, Registry.standard.profiles[s.category.id]? = some p ∧ p.cached = true ∧
      s.category.id.toList <:+ key.toList ∧ (p.referenceOnly = true → s.declaration = none) := by
  have htold : w.index.symbols.toldOf key = some s.told := by
    rw [SymbolTable.toldOf, hs, Option.map_some]
  have hf := SymbolTable.lasting_filed.reachable hw key s.told htold
  exact ⟨s.category.profile, Registry.standard_profile s.category, hf.cached, hf.suffix,
    hf.undeclared⟩

section
attribute [local instance] Codecs.standard KeyOrder.ascending

/-- A header for a whole category of npcs. The category is stored and not declared. -/
theorem Reachable.stored_category_of_header :
    let w : Workspace := perform { root := ⟨.single, ["ws"]⟩ } ⟨∅⟩
      (.parse "/ws/a.rs2" "[opnpc1,_bankers]")
    w.Reachable ∧ ∃ s, w.index.symbols.symbols["bankersCATEGORY"]? = some s ∧
      ∃ p, Registry.standard.profiles[s.category.id]? = some p ∧ p.cached = true ∧
        s.category.id.toList <:+ "bankersCATEGORY".toList ∧
        (p.referenceOnly = true → s.declaration = none) := by
  intro w
  have hw : w.Reachable := .step ⟨∅⟩ _ (.start ⟨.single, ["ws"]⟩ {})
  obtain ⟨s, hs⟩ : ∃ s, w.index.symbols.symbols["bankersCATEGORY"]? = some s :=
    Option.isSome_iff_exists.1 (by decide +kernel)
  exact ⟨hw, s, hs, hw.stored_category hs⟩

end

end Workspace

end ScriptIndex
