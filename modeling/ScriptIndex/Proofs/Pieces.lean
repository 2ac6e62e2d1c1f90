import ScriptIndex.Text.Pieces

namespace ScriptIndex.Text

theorem cut?_append {mark text before after : List Char} (h : cut? mark text = some (before, after)) :
    text = before ++ mark ++ after := by
  induction text generalizing before with
  | nil =>
    unfold cut? at h
    split at h
    · rename_i hm
      cases h
      simp [List.isEmpty_iff.1 hm]
    · cases h
  | cons c rest ih =>
    unfold cut? at h
    split at h
    · rename_i hp
      cases h
      obtain ⟨after, ha⟩ := List.isPrefixOf_iff_prefix.1 hp
      rw [← ha, List.drop_left, List.nil_append]
    · obtain ⟨⟨b, a⟩, hc, he⟩ := Option.map_eq_some_iff.1 h
      cases he
      rw [ih hc]
      rfl

theorem before_prefix (mark text : List Char) : before mark text <+: text := by
  unfold before
  cases h : cut? mark text with
  | none => exact List.prefix_refl text
  | some pieces =>
    obtain ⟨b, a⟩ := pieces
    have ht := cut?_append h
    rw [List.append_assoc] at ht
    exact ⟨mark ++ a, ht.symm⟩

/-- A mark whose first character does not stand in a part of a text is looked for behind it. -/
theorem before_append {c : Char} {mark front : List Char} (h : c ∉ front) (rest : List Char) :
    before (c :: mark) (front ++ rest) = front ++ before (c :: mark) rest := by
  induction front with
  | nil => rfl
  | cons d front ih =>
    obtain ⟨hd, hf⟩ := not_or.1 (mt List.mem_cons.2 h)
    have ih := ih hf
    unfold before at ih ⊢
    simp only [List.cons_append, cut?, List.isPrefixOf, beq_eq_false_iff_ne.2 hd, Bool.false_and,
      Bool.false_eq_true, if_false]
    cases hc : cut? (c :: mark) (front ++ rest) with
    | none =>
      rw [hc] at ih
      simpa using ih
    | some pieces =>
      rw [hc] at ih
      simpa using ih

/-- A single character cuts a text at its first occurrence. -/
theorem cut?_singleton {c : Char} {before after : List Char} (h : c ∉ before) :
    cut? [c] (before ++ c :: after) = some (before, after) := by
  induction before with
  | nil => simp [cut?]
  | cons d before ih =>
    obtain ⟨hd, hb⟩ := not_or.1 (mt List.mem_cons.2 h)
    simp [cut?, hd, ih hb]

theorem cut?_singleton_none {c : Char} {text : List Char} (h : c ∉ text) : cut? [c] text = none := by
  induction text with
  | nil => simp [cut?]
  | cons d text ih =>
    obtain ⟨hd, ht⟩ := not_or.1 (mt List.mem_cons.2 h)
    simp [cut?, hd, ih ht]

theorem find?_singleton {c : Char} {before after : List Char} (h : c ∉ before) :
    find? [c] (before ++ c :: after) = some before.length := by
  simp [find?, cut?_singleton h]

/-- A text without the mark starts what stands around a mark only if it starts what stands before. -/
theorem prefix_append_mark {c : Char} {a b rest : List Char} (hb : c ∉ b) :
    b <+: a ++ c :: rest ↔ b <+: a := by
  refine ⟨fun h => ?_, fun h => h.trans (List.prefix_append a _)⟩
  rcases List.prefix_or_prefix_of_prefix h (List.prefix_append a (c :: rest)) with hba | ⟨t, rfl⟩
  · exact hba
  · cases t with
    | nil => simp
    | cons d t =>
      -- Beyond `a` the text would have to go on with the mark.
      rw [List.prefix_append_right_inj, List.cons_prefix_cons] at h
      exact absurd (by simp [h.1]) hb

/-- What stands behind the first mark ends with what stands behind any other. -/
theorem behind_mark_cases {c : Char} {a b q s : List Char} (ha : c ∉ a)
    (h : q ++ c :: s = a ++ c :: b) : b = s ∨ ∃ r, b = r ++ c :: s := by
  rcases List.append_eq_append_iff.1 h with ⟨t, rfl, ht⟩ | ⟨t, rfl, ht⟩
  · cases t with
    | nil => exact .inl (List.cons.inj ht).2.symm
    | cons d t =>
      obtain ⟨rfl, -⟩ := List.cons.inj ht
      exact absurd (by simp) ha
  · cases t with
    | nil => exact .inl (List.cons.inj ht).2
    | cons d t => exact .inr ⟨t, (List.cons.inj ht).2⟩

/-- A mark and what stands behind it end a text only from the last mark on. -/
theorem suffix_append_mark {c : Char} {a b front : List Char} (ha : c ∉ a) (hb : c ∉ b) :
    c :: a <:+ front ++ c :: b ↔ a = b := by
  refine ⟨fun ⟨t, ht⟩ => ?_, fun h => h ▸ List.suffix_append front _⟩
  rcases List.append_eq_append_iff.1 ht with ⟨s, -, hs⟩ | ⟨s, -, hs⟩
  · cases s with
    | nil => exact (List.cons.inj hs).2
    | cons d s => exact absurd (by simp [(List.cons.inj hs).2]) ha
  · cases s with
    | nil => exact (List.cons.inj hs).2.symm
    | cons d s => exact absurd (by simp [(List.cons.inj hs).2]) hb

/-- Where a mark is found, its characters stand. -/
theorem getElem?_of_find? {c : Char} {mark text : List Char} {n : Nat}
    (h : find? (c :: mark) text = some n) : text[n]? = some c := by
  obtain ⟨⟨before, after⟩, hc, rfl⟩ := Option.map_eq_some_iff.1 h
  rw [cut?_append hc]
  simp

theorem prefix_drop_of_find? {mark text : List Char} {n : Nat} (h : find? mark text = some n) :
    mark <+: text.drop n := by
  obtain ⟨⟨before, after⟩, hc, rfl⟩ := Option.map_eq_some_iff.1 h
  rw [cut?_append hc, List.append_assoc, List.drop_left]
  exact List.prefix_append _ _

/-- A mark that occurs in a text is found there or further to the left. -/
theorem exists_find?_of_append (before mark after : List Char) :
    ∃ n ≤ before.length, find? mark (before ++ mark ++ after) = some n := by
  induction before with
  | nil =>
    refine ⟨0, Nat.le_refl _, ?_⟩
    cases hm : mark ++ after with
    | nil =>
      obtain ⟨rfl, rfl⟩ := List.append_eq_nil_iff.1 hm
      rfl
    | cons c rest =>
      have hp : mark.isPrefixOf (c :: rest) := by
        rw [← hm]
        exact List.isPrefixOf_iff_prefix.2 (List.prefix_append _ _)
      simp [find?, hm, cut?, hp]
  | cons c before ih =>
    obtain ⟨n, hn, hf⟩ := ih
    obtain ⟨⟨b, a⟩, hc, rfl⟩ := Option.map_eq_some_iff.1 hf
    simp only [find?, List.cons_append, cut?, hc, List.length_cons]
    split
    · exact ⟨0, Nat.zero_le _, rfl⟩
    · exact ⟨b.length + 1, Nat.succ_le_succ hn, rfl⟩

/-- Text that follows does not change where a mark is found. -/
theorem find?_append {mark text : List Char} {n : Nat} (h : find? mark text = some n)
    (rest : List Char) : find? mark (text ++ rest) = some n := by
  obtain ⟨⟨before, after⟩, hc, rfl⟩ := Option.map_eq_some_iff.1 h
  suffices hs : cut? mark (text ++ rest) = some (before, after ++ rest) by simp [find?, hs]
  clear h
  induction text generalizing before with
  | nil =>
    unfold cut? at hc
    split at hc
    · rename_i hm
      cases hc
      cases rest <;> simp [cut?, List.isEmpty_iff.1 hm]
    · cases hc
  | cons c text ih =>
    have ht := cut?_append hc
    unfold cut? at hc
    split at hc
    · rename_i hp
      cases hc
      have hp := List.isPrefixOf_iff_prefix.1 hp
      have hq : mark.isPrefixOf (c :: (text ++ rest)) :=
        List.isPrefixOf_iff_prefix.2 (hp.trans ⟨rest, rfl⟩)
      simp only [List.cons_append, cut?, hq, if_true]
      rw [← List.cons_append, List.drop_append_of_le_length hp.length_le]
    · rename_i hp
      obtain ⟨⟨b, a⟩, hc, he⟩ := Option.map_eq_some_iff.1 hc
      cases he
      -- The mark is no longer than the text, so it does not reach over its end.
      have hlen : mark.length ≤ (c :: text).length := by
        rw [ht]
        simp only [List.length_append, List.length_cons]
        omega
      have hq : ¬ mark.isPrefixOf (c :: (text ++ rest)) := by
        intro hq
        refine hp (List.isPrefixOf_iff_prefix.2 ?_)
        exact List.prefix_of_prefix_length_le (List.isPrefixOf_iff_prefix.1 hq) ⟨rest, rfl⟩ hlen
      simp [cut?, hq, ih b hc]

theorem not_mem_of_mem_splitOn {sep : Char} {text piece : List Char} (h : piece ∈ text.splitOn sep) :
    sep ∉ piece := by
  induction text generalizing piece with
  | nil => simp_all
  | cons c rest ih =>
    rw [List.splitOn_cons_eq_if_modifyHead] at h
    split at h
    · rcases List.mem_cons.1 h with rfl | h
      · exact List.not_mem_nil
      · exact ih h
    · rename_i hc
      cases hs : rest.splitOn sep with
      | nil => exact absurd hs (List.splitOn_ne_nil sep rest)
      | cons first pieces =>
        rw [hs] at ih h
        rcases List.mem_cons.1 h with rfl | h
        · exact fun hmem => (List.mem_cons.1 hmem).elim (fun he => hc (by simp [he]))
            (ih List.mem_cons_self)
        · exact ih (List.mem_cons_of_mem first h)

theorem strip_infix (text : List Char) : strip text <:+: text := by
  obtain ⟨back, hb⟩ := List.dropWhile_suffix (l := (text.dropWhile isBlank).reverse) isBlank
  obtain ⟨front, hf⟩ := List.dropWhile_suffix (l := text) isBlank
  refine ⟨front, back.reverse, ?_⟩
  have hr := congrArg List.reverse hb
  simp only [List.reverse_append, List.reverse_reverse] at hr
  unfold strip
  rw [List.append_assoc, hr, hf]

end ScriptIndex.Text
