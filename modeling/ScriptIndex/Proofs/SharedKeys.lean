import Mathlib.Data.List.Infix
import ScriptIndex.Proofs.WriteOrder

/-! Symbols that share a key. A key is a name with the name of its category behind it, so two symbols
can only share one if the name of one category ends with the name of the other. Of the categories that
are kept, timers and soft timers do. A write changes nothing but the symbol under its own key. -/
namespace ScriptIndex

namespace Category

theorem mem_all (c : Category) : c ∈ all := by
  cases c <;> decide

/-- Of the categories that are kept, one has a name that ends with that of another. -/
private theorem eq_of_id_suffix {c d : Category} (hc : c.profile.cached = true)
    (hd : d.profile.cached = true) (h : c.id.toList <:+ d.id.toList) :
    c = d ∨ c = timer ∧ d = softTimer := by
  have hall : ∀ c ∈ all, ∀ d ∈ all, c.profile.cached = true → d.profile.cached = true →
      c.id.toList <:+ d.id.toList → c = d ∨ c = timer ∧ d = softTimer := by decide +kernel
  exact hall c (mem_all c) d (mem_all d) hc hd h

end Category

namespace Symbol

/-- Two symbols that share a key: a soft timer, and a timer whose name is longer by what the names of
the two categories differ in. -/
def Clash (n : String) (c : Category) (m : String) (d : Category) : Prop :=
  (c = .timer ∧ d = .softTimer ∧ n = m ++ "SOFT") ∨ (c = .softTimer ∧ d = .timer ∧ m = n ++ "SOFT")

private theorem key?_of_ne {n : String} (hn : n ≠ "") (c : Category) : key? n c = some (n ++ c.id) :=
  if_neg hn

/-- The longer of two equal keys' names goes on with what the shorter category name lacks. -/
private theorem eq_or_timer_of_append {n m : String} {c d : Category}
    (hc : c.profile.cached = true) (hd : d.profile.cached = true) (h : n ++ c.id = m ++ d.id)
    (hs : c.id.toList <:+ d.id.toList) :
    (n = m ∧ c = d) ∨ (c = .timer ∧ d = .softTimer ∧ n = m ++ "SOFT") := by
  rcases Category.eq_of_id_suffix hc hd hs with rfl | ⟨rfl, rfl⟩
  · exact .inl ⟨(String.append_left_inj _).1 h, rfl⟩
  · have hid : Category.id .softTimer = "SOFT" ++ Category.id .timer := by decide
    rw [hid, ← String.append_assoc] at h
    exact .inr ⟨rfl, rfl, (String.append_left_inj _).1 h⟩

/-- Two symbols share a key exactly if they are one or clash. -/
theorem key?_eq_iff {n m : String} {c d : Category} (hn : n ≠ "") (hm : m ≠ "")
    (hc : c.profile.cached = true) (hd : d.profile.cached = true) :
    key? n c = key? m d ↔ (n = m ∧ c = d) ∨ Clash n c m d := by
  rw [key?_of_ne hn, key?_of_ne hm, Option.some.injEq]
  constructor
  · intro h
    have hl : n.toList ++ c.id.toList = m.toList ++ d.id.toList := by
      rw [← String.toList_append, h, String.toList_append]
    rcases List.suffix_or_suffix_of_suffix (List.suffix_append n.toList c.id.toList)
      (hl ▸ List.suffix_append m.toList d.id.toList) with hs | hs
    · exact (eq_or_timer_of_append hc hd h hs).imp_right .inl
    · rcases eq_or_timer_of_append hd hc h.symm hs with ⟨rfl, rfl⟩ | ⟨rfl, rfl, hname⟩
      · exact .inl ⟨rfl, rfl⟩
      · exact .inr (.inr ⟨rfl, rfl, hname⟩)
  · rintro (⟨rfl, rfl⟩ | ⟨rfl, rfl, rfl⟩ | ⟨rfl, rfl, rfl⟩)
    · rfl
    · rw [String.append_assoc]
      rfl
    · rw [String.append_assoc]
      rfl

end Symbol

namespace SymbolTable

/-- An operation on the symbol with a name in a category. -/
def Operation.IsOn (op : Operation) (name : String) (c : Category) : Prop :=
  ∃ role, op.subject? = some (name, role) ∧ role.category = c

/-- A write leaves the symbols under the other keys. -/
private theorem symbols_perform {t : SymbolTable} {op : Operation} {name : String} {c : Category}
    (h : op.IsOn name c) {k : String} (hk : Symbol.key? name c ≠ some k) :
    (t.perform op).1.symbols[k]? = t.symbols[k]? := by
  obtain ⟨role, hs, rfl⟩ := h
  cases op with
  | declare name' role' location excerpt =>
    cases hs
    rw [perform_declare]
    cases hr : t.declare name role location excerpt with
    | error e => rfl
    | ok r =>
      rcases declare_cases hr with ⟨-, rfl⟩ | ⟨_, _, _, _, _, rfl⟩ | ⟨key, f, s, hkey, _, _, _, he, -⟩
      · rfl
      · rfl
      · have hne : key ≠ k := fun h => hk (h ▸ hkey)
        rw [he, symbols_recordDeclaration, symbols_record, if_neg hne]
  | refer name' role' file p packId =>
    cases hs
    rw [perform_refer]
    rcases refer_cases t name role file p packId with he | ⟨key, f, s, hkey, _, _, he⟩
    · rw [he]
    · have hne : key ≠ k := fun h => hk (h ▸ hkey)
      rw [he, symbols_record, if_neg hne]
  | clearFile file => cases hs
  | clear => cases hs

/-- A write leaves every symbol with another key as it was. -/
theorem get?_perform {t : SymbolTable} {op : Operation} {n m : String} {c d : Category}
    (h : op.IsOn n c) (hk : Symbol.key? n c ≠ Symbol.key? m d) :
    (t.perform op).1.get? m d = t.get? m d := by
  unfold get?
  cases hm : Symbol.key? m d with
  | none => rfl
  | some k => exact symbols_perform h (hm ▸ hk)

/-- A reference to a symbol that is kept makes it known. -/
private theorem contains_refer (name : String) {c : Category} (hn : name ≠ "")
    (hc : c.profile.cached = true) :
    ((run {} []).perform (.refer name (.reference c) "a" ⟨0, 0⟩ none)).1.contains name c = true := by
  have hunknown : (Role.reference c).category ≠ .unknown := by
    rintro (rfl : c = .unknown)
    cases hc
  have hfile : fileKey? "a" = some "a" := by decide +kernel
  have hkey : Symbol.key? name (Role.reference c).category = some (name ++ c.id) := if_neg hn
  have hnone : (run {} []).symbols[name ++ c.id]? = none := Std.ExtTreeMap.getElem?_empty
  rw [perform_refer]
  simp only [contains, get?, refer, hkey, hfile, hnone, hunknown, if_false]
  rw [Symbol.key?_of_ne hn, Option.bind_some, symbols_record, if_pos rfl]
  rfl

/-- Writes to a symbol that is kept leave another one exactly as it was, in every state, unless the two
clash; then they are one symbol. -/
theorem writes_apart_iff_not_clash {n m : String} {c d : Category} (hn : n ≠ "") (hm : m ≠ "")
    (hc : c.profile.cached = true) (hd : d.profile.cached = true) (hne : (n, c.id) ≠ (m, d.id)) :
    ((∀ (ops : List Operation) (op : Operation), op.IsOn n c →
        ((run {} ops).perform op).1.get? m d = (run {} ops).get? m d ∧
          ((run {} ops).perform op).1.contains m d = (run {} ops).contains m d) ↔
      ¬ Symbol.Clash n c m d) ∧
    (Symbol.Clash n c m d → ∀ t : SymbolTable, t.get? m d = t.get? n c) := by
  have hkeys : Symbol.key? n c = Symbol.key? m d ↔ Symbol.Clash n c m d := by
    rw [Symbol.key?_eq_iff hn hm hc hd, or_iff_right]
    rintro ⟨rfl, rfl⟩
    exact hne rfl
  have hsame (h : Symbol.Clash n c m d) (t : SymbolTable) : t.get? m d = t.get? n c := by
    rw [get?, get?, hkeys.2 h]
  refine ⟨⟨fun h hclash => ?_, fun h ops op hop => ?_⟩, hsame⟩
  · -- The first reference to the one symbol makes the other one known.
    have hknown := contains_refer n hn hc
    have hleft := (h [] (.refer n (.reference c) "a" ⟨0, 0⟩ none) ⟨_, rfl, rfl⟩).2
    rw [contains, hsame hclash] at hleft
    rw [contains, hleft] at hknown
    rw [contains, get?, Symbol.key?_of_ne hm] at hknown
    cases hknown
  · have hget := get?_perform (t := run {} ops) hop (mt hkeys.1 h)
    exact ⟨hget, by rw [contains, contains, hget]⟩

/-- A timer and a soft timer that do not clash, since it is the name of the soft timer that is longer. -/
theorem timer_apart_from_soft_timer :
    let t := run {} [.refer "aSOFT" (.reference .softTimer) "b.rs2" ⟨4, 2⟩ none]
    let op := Operation.refer "a" (.reference .timer) "a.rs2" ⟨0, 7⟩ none
    "a" ≠ "" ∧ "aSOFT" ≠ "" ∧ Category.timer.profile.cached = true ∧
      Category.softTimer.profile.cached = true ∧
      ("a", Category.timer.id) ≠ ("aSOFT", Category.softTimer.id) ∧
      (t.perform op).1.get? "aSOFT" .softTimer = t.get? "aSOFT" .softTimer ∧
      (t.perform op).1.contains "aSOFT" .softTimer = t.contains "aSOFT" .softTimer := by
  intro t op
  have hids : ("a", Category.timer.id) ≠ ("aSOFT", Category.softTimer.id) := by decide
  have hclash : ¬ Symbol.Clash "a" .timer "aSOFT" .softTimer := by
    rintro (⟨-, -, hname⟩ | ⟨hc, -, -⟩)
    · exact absurd hname (by decide)
    · exact absurd hc (by decide)
  have hapart := writes_apart_iff_not_clash (by decide) (by decide) rfl rfl hids
  exact ⟨by decide, by decide, rfl, rfl, hids, (hapart.1.2 hclash) _ op ⟨_, rfl, rfl⟩⟩

/-- The declaration of a timer makes a soft timer known that stands nowhere. -/
theorem timer_declares_soft_timer :
    let op := Operation.declare "aSOFT" (.declaration .timer) (.at "a.rs2" 0 7 0)
      ⟨["[timer,aSOFT]".toList], 0⟩
    (run {} []).contains "a" .softTimer = false ∧
      ((run {} []).perform op).1.contains "a" .softTimer = true ∧
      (((run {} []).perform op).1.get? "a" .softTimer).map Symbol.name = some "aSOFT" := by
  decide +kernel

end SymbolTable

end ScriptIndex
