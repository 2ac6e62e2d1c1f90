import ScriptIndex.Proofs.Pieces
import ScriptIndex.Query

/-! What is stripped from a written word, and what is added to it. Nothing of the word is lost, and a
rename that writes the adjusted name in the place of the word's own part puts back what was stripped. -/
namespace ScriptIndex

/-- The word with a text in the place of some of its characters, from a column of its line on. -/
def Word.replaced (w : Word) (column length : Nat) (text : String) : String :=
  String.ofList (w.value.toList.take (column - w.start) ++ text.toList ++
    w.value.toList.drop (column - w.start + length))

namespace Annotations

/-- The qualifier of a word that is written without one: the interface that the file of a component is
named for, or the table of a column. -/
def qualifier? [KeyOrder] (c : Category) (ctx : WordContext) (index : Index) : Option String :=
  match c with
  | .component => some ctx.line.fileName.name
  | .dbColumn => tableOf? ctx index
  | _ => none

/-- How a name is made of a word: its own part is what stands between what was stripped on either side,
and a qualifier may be put before it. -/
structure MadeOf (w : Word) (qualifier : Option String) (own : String) (a : Annotations) : Prop where
  value : w.value = a.front ++ own ++ a.back
  word : a.word = own ∨ ∃ q, qualifier = some q ∧ a.word = q ++ ":" ++ own
  start : a.start = w.start + a.front.length
  modified : a.isModified = true ↔ a.word ≠ w.value

private theorem madeOf_plain (w : Word) (qualifier : Option String) :
    MadeOf w qualifier w.value (plain w) where
  value := by simp [plain]
  word := .inl rfl
  start := rfl
  modified := by simp [plain]

private theorem madeOf_qualified (w : Word) (q : String) : MadeOf w (some q) w.value (qualified w q) where
  value := by simp [qualified]
  word := .inr ⟨q, rfl, rfl⟩
  start := rfl
  modified := by
    refine iff_of_true rfl fun he => ?_
    have hlength := congrArg String.length he
    simp only [qualified, String.length_append] at hlength
    have hcolon : ":".length = 1 := rfl
    omega

private theorem madeOf_withoutFront {w : Word} {front : String} (qualifier : Option String)
    (hfront : front ≠ "") (h : front.toList <+: w.value.toList) :
    MadeOf w qualifier (withoutFront w front).word (withoutFront w front) := by
  obtain ⟨rest, hrest⟩ := h
  have hword : (withoutFront w front).word = String.ofList rest := by
    rw [withoutFront, ← hrest, ← String.length_toList, List.drop_left]
  have hvalue : w.value = front ++ String.ofList rest := by
    rw [← String.toList_inj, String.toList_append, String.toList_ofList, hrest]
  refine ⟨?_, .inl rfl, rfl, iff_of_true rfl fun he => hfront ?_⟩
  · rw [hword, hvalue]
    simp [withoutFront]
  · rw [hword, hvalue] at he
    exact String.append_eq_right_iff.1 he.symm

private theorem madeOf_withoutBack {w : Word} {n : Nat} (qualifier : Option String) (hn : 0 < n)
    (h : n ≤ w.value.length) :
    MadeOf w qualifier (withoutBack w n).word (withoutBack w n) := by
  have hlength : (withoutBack w n).word.length = w.value.length - n := by
    simp only [withoutBack, String.length_ofList, List.length_take, String.length_toList]
    omega
  refine ⟨?_, .inl rfl, rfl, iff_of_true rfl fun he => ?_⟩
  · rw [← String.toList_inj]
    simp [withoutBack]
  · rw [he] at hlength
    omega

/-- The name of a loc model is longer than the mark of its shape. -/
private theorem length_of_isLocModel {word : String} (h : LineShape.isLocModel word = true) :
    2 ≤ word.length := by
  unfold LineShape.isLocModel at h
  split at h
  · rename_i shape name hreverse
    rw [← String.length_toList, ← List.length_reverse, hreverse]
    simp
  · cases h

variable {c : Category} {ctx : WordContext} {index : Index} {a : Annotations}

private theorem exists_madeOf_ofWord? [KeyOrder] (h : ofWord? c ctx index = some a) :
    ∃ own, MadeOf ctx.word (qualifier? c ctx index) own a := by
  unfold ofWord? at h
  dsimp only at h
  split at h
  · cases h
    split
    · exact ⟨_, madeOf_plain _ _⟩
    · exact ⟨_, madeOf_qualified _ _⟩
  · split at h
    · cases h
      exact ⟨_, madeOf_plain _ _⟩
    · obtain ⟨table, htable, rfl⟩ := Option.map_eq_some_iff.1 h
      exact ⟨_, htable ▸ madeOf_qualified _ table⟩
  · split at h
    · rename_i hfront
      cases h
      obtain ⟨hvalue, hword, hstart, hmodified⟩ :=
        madeOf_withoutFront (qualifier? .obj ctx index) (by decide) (List.isPrefixOf_iff_prefix.1 hfront)
      exact ⟨_, hvalue, hword, hstart, hmodified⟩
    · cases h
      exact ⟨_, madeOf_plain _ _⟩
  · cases h
    split
    · rename_i hfront
      exact ⟨_, madeOf_withoutFront _ (by decide) (List.isPrefixOf_iff_prefix.1 hfront)⟩
    · exact ⟨_, madeOf_plain _ _⟩
  · cases h
    split
    · rename_i hmodel
      exact ⟨_, madeOf_withoutBack _ (by decide) (length_of_isLocModel hmodel)⟩
    · exact ⟨_, madeOf_plain _ _⟩
  · cases h
    exact ⟨_, madeOf_plain _ _⟩

theorem exists_madeOf [KeyOrder] (h : of? c ctx index = some a) :
    ∃ own, MadeOf ctx.word (qualifier? c ctx index) own a := by
  obtain ⟨b, hb, rfl⟩ := Option.map_eq_some_iff.1 h
  obtain ⟨own, hvalue, hword, hstart, hmodified⟩ := exists_madeOf_ofWord? hb
  exact ⟨own, hvalue, hword, hstart, hmodified⟩

/-- A text that is written in the place of the word's own part stands between what was stripped. -/
theorem MadeOf.replaced {w : Word} {qualifier : Option String} {own : String}
    (h : MadeOf w qualifier own a) (text : String) :
    w.replaced a.start own.length text = a.front ++ text ++ a.back := by
  have hvalue : w.value.toList = a.front.toList ++ (own.toList ++ a.back.toList) := by
    rw [h.value]
    simp
  have hfront : a.start - w.start = a.front.toList.length := by
    rw [h.start, Nat.add_sub_cancel_left, String.length_toList]
  rw [← String.toList_inj, Word.replaced, hvalue, hfront, ← String.length_toList, List.take_left,
    List.drop_length_add_append, List.drop_left]
  simp

end Annotations

namespace Query

private theorem without_front {front text : List Char} (h : front ≠ [] → ¬ front <+: text) :
    (if front.isPrefixOf text then text.drop front.length else text) = text := by
  by_cases hfront : front = []
  · simp [hfront]
  · rw [if_neg fun hp => h hfront (List.isPrefixOf_iff_prefix.1 hp)]

private theorem without_back {back text : List Char} (h : back ≠ [] → ¬ back <:+ text) :
    (if back.isSuffixOf text then text.take (text.length - back.length) else text) = text := by
  by_cases hback : back = []
  · simp [hback]
  · rw [if_neg fun hs => h hback (List.isSuffixOf_iff_suffix.1 hs)]

variable {a : Annotations} {name : String}

/-- A name that has nothing of what was stripped, and no qualifier, is written as it is. -/
private theorem adjustName_eq (hcolon : ':' ∉ name.toList)
    (hfront : a.front ≠ "" → ¬ a.front.toList <+: name.toList)
    (hback : a.back ≠ "" → ¬ a.back.toList <:+ name.toList) : adjustName a name = name := by
  unfold adjustName
  dsimp only
  rw [without_front fun h => hfront (by simpa using h), without_back fun h => hback (by simpa using h),
    Text.cut?_singleton_none hcolon, String.ofList_toList]

/-- What was stripped is taken off a name that is typed with it. -/
theorem adjustName_append (hcolon : ':' ∉ name.toList) :
    adjustName a (a.front ++ name ++ a.back) = name := by
  have htyped : (a.front ++ name ++ a.back).toList = a.front.toList ++ (name.toList ++ a.back.toList) := by
    simp
  have hfront : a.front.toList.isPrefixOf (a.front ++ name ++ a.back).toList = true := by
    rw [htyped]
    exact List.isPrefixOf_iff_prefix.2 (List.prefix_append _ _)
  have hback : a.back.toList.isSuffixOf (name.toList ++ a.back.toList) = true :=
    List.isSuffixOf_iff_suffix.2 (List.suffix_append _ _)
  unfold adjustName
  dsimp only
  rw [if_pos hfront, htyped, List.drop_left, if_pos hback, List.length_append, Nat.add_sub_cancel,
    List.take_left, Text.cut?_singleton_none hcolon, String.ofList_toList]

end Query

namespace Annotations
variable {c : Category} {ctx : WordContext} {index : Index} {a : Annotations}

/-- What is made of a word loses nothing of it: the word is its own part between what was stripped, the
name is that part, or that part behind a qualifier, and it counts as modified exactly if it differs from
the word. A new name, typed with or without what was stripped, is written between it again. -/
theorem of?_restored [KeyOrder] (h : of? c ctx index = some a) :
    ∃ own : String,
      ctx.word.value = a.front ++ own ++ a.back ∧
      (a.word = own ∨ ∃ q, qualifier? c ctx index = some q ∧ a.word = q ++ ":" ++ own) ∧
      a.start = ctx.word.start + a.front.length ∧
      (a.isModified = true ↔ a.word ≠ ctx.word.value) ∧
      ∀ name : String, ':' ∉ name.toList → (a.front ≠ "" → ¬ a.front.toList <+: name.toList) →
        (a.back ≠ "" → ¬ a.back.toList <:+ name.toList) →
        ∀ typed ∈ [name, a.front ++ name ++ a.back],
          ctx.word.replaced a.start own.length (Query.adjustName a typed) =
            a.front ++ name ++ a.back := by
  obtain ⟨own, hmade⟩ := exists_madeOf h
  refine ⟨own, hmade.value, hmade.word, hmade.start, hmade.modified, fun name hcolon hfront hback => ?_⟩
  simp only [List.forall_mem_cons, List.not_mem_nil, false_implies, implies_true, and_true,
    hmade.replaced]
  exact ⟨by rw [Query.adjustName_eq hcolon hfront hback], by rw [Query.adjustName_append hcolon]⟩

section
attribute [local instance] KeyOrder.ascending

/-- A loc model keeps the mark of its shape when it is renamed, whether the mark is typed or not. -/
theorem renamed_loc_model :
    let ctx : WordContext := ⟨.ofLine "model=wall_0".toList 1 "door.loc", ⟨"wall_0", 6, 1⟩, 6⟩
    ∃ a, of? .model ctx {} = some a ∧ a.word = "wall" ∧ a.back = "_0" ∧
      ctx.word.replaced a.start 4 (Query.adjustName a "fence_0") = "fence_0" ∧
      ctx.word.replaced a.start 4 (Query.adjustName a "fence") = "fence_0" := by
  intro ctx
  let a : Annotations := { word := "wall", start := 6, isModified := true, back := "_0" }
  have ha : of? .model ctx {} = some a := by decide +kernel
  obtain ⟨own, hvalue, hword, -, -, hrename⟩ := of?_restored ha
  have hown : own = "wall" := by
    rcases hword with hword | ⟨q, hq, -⟩
    · exact hword.symm
    · cases hq
  subst hown
  have hnew := hrename "fence" (by decide) (fun h => absurd rfl h) (fun _ => by decide)
  exact ⟨a, ha, rfl, rfl, hnew "fence_0" (by decide), hnew "fence" (by decide)⟩

end

end Annotations

end ScriptIndex
