import ScriptIndex.Proofs.CursorIndependence

namespace ScriptIndex

namespace ConfigLine

def Separates (text : Line) (column : Nat) : Prop :=
  text[column]? = some ',' ∧ (column = 0 ∨ text[column - 1]? ≠ some '\\')

instance (line : Line) (column : Nat) : Decidable (Separates line column) :=
  inferInstanceAs (Decidable (_ ∧ _))

/-- The number of columns before a given one in which a comma separates. -/
def separatorsBefore (line : Line) (column : Nat) : Nat :=
  (List.range column).countP (Separates line ·)

private theorem separatorsBefore_succ (line : Line) (column : Nat) :
    separatorsBefore line (column + 1) =
      separatorsBefore line column + if Separates line column then 1 else 0 := by
  unfold separatorsBefore
  rw [List.range_succ, List.countP_append, List.countP_singleton]
  simp only [decide_eq_true_eq]

private theorem separatorsBefore_mono (line : Line) {a b : Nat} (h : a ≤ b) :
    separatorsBefore line a ≤ separatorsBefore line b := by
  induction h with
  | refl => exact Nat.le_refl _
  | step _ ih =>
    rw [separatorsBefore_succ]
    omega

/-- A further character counts if it is a comma and the one before it does not escape it. -/
private theorem commas_concat (escaped : Bool) (text : List Char) (c : Char) :
    commas escaped (text ++ [c]) =
      commas escaped text +
        if c = ',' ∧ (text.getLast?.map (· == '\\')).getD escaped = false then 1 else 0 := by
  induction text generalizing escaped with
  | nil => cases escaped <;> simp [commas]
  | cons first text ih =>
    rw [List.cons_append, commas, commas, ih, Nat.add_assoc, List.getLast?_cons]
    cases text.getLast? <;> rfl

/-- The commas that a reading from the left counts are those that separate. The induction is on the
column, since whether the comma in it counts is said by the character before. -/
private theorem commas_take (line : Line) {column : Nat} (h : column ≤ line.length) :
    commas false (line.take column) = separatorsBefore line column := by
  induction column with
  | zero => rfl
  | succ column ih =>
    rw [List.take_succ_eq_append_getElem h, commas_concat, ih (by omega), separatorsBefore_succ,
      List.getLast?_take]
    congr 1
    refine if_congr (and_congr ?_ ?_) rfl rfl
    · rw [List.getElem?_eq_getElem h, Option.some.injEq]
    · split
      · rename_i hzero
        simp [hzero]
      · rename_i hne
        rw [List.getElem?_eq_getElem (by omega)]
        simp [hne]

private theorem place?_eq_separatorsBefore (line : Line) (column : Int) :
    place? line column =
      if column ≤ line.length then some (separatorsBefore line column.toNat) else none := by
  have h := placeFrom?_fieldsFrom 0 column false line
  rw [Int.zero_add, Int.sub_zero] at h
  unfold place? fields
  rw [h]
  split
  · rw [commas_take line (by omega)]
  · rfl

/-- All columns of a word lie in one field. -/
theorem place?_eq_of_mem {line : Line} {w : Word} (hw : w ∈ Word.ofLine line) {column : Int}
    (hstart : w.start ≤ column) (hlast : column ≤ w.last) :
    place? line column = place? line w.start := by
  obtain ⟨n, rfl⟩ := Int.eq_ofNat_of_zero_le (Int.le_trans (Int.natCast_nonneg w.start) hstart)
  let l : LineContext := ⟨Word.ofLine line, "", line, 0, FileName.ofFile ""⟩
  exact (sameWord_of_mem (l := l) rfl hw (Int.ofNat_le.1 hstart) (Int.ofNat_le.1 hlast)).place

/-- Along a line the place of the field never goes back. -/
theorem place?_mono {line : Line} {a b : Int} (h : a ≤ b) {n : Nat} (hb : place? line b = some n) :
    ∃ m ≤ n, place? line a = some m := by
  rw [place?_eq_separatorsBefore] at hb
  split at hb
  · cases hb
    refine ⟨separatorsBefore line a.toNat, separatorsBefore_mono line (Int.toNat_le_toNat h), ?_⟩
    rw [place?_eq_separatorsBefore, if_pos (by omega)]
  · cases hb

/-- The place of the field on a column is the number of commas before it that separate; behind the end of
the line there is none. It is the same on all columns of a word, and a column further to the right has no
smaller one. -/
theorem place?_counts_separators (line : Line) :
    (∀ column : Int, place? line column =
      if column ≤ line.length then some (separatorsBefore line column.toNat) else none) ∧
    (∀ w ∈ Word.ofLine line, ∀ column : Int, w.start ≤ column → column ≤ w.last →
      place? line column = place? line w.start) ∧
    ∀ a b : Int, a ≤ b → ∀ n, place? line b = some n → ∃ m ≤ n, place? line a = some m :=
  ⟨place?_eq_separatorsBefore line, fun _ hw _ => place?_eq_of_mem hw, fun _ _ h _ => place?_mono h⟩

/-- The comma behind the backslash leaves `bc` in the first field, and the two commas behind `bc` put the
end of the line into the third. -/
theorem place?_behind_escaped_comma :
    (⟨"bc", 8, 2⟩ : Word) ∈ Word.ofLine "name=a\\,bc,,d".toList ∧
      place? "name=a\\,bc,,d".toList 9 = some 0 ∧
      place? "name=a\\,bc,,d".toList 9 = place? "name=a\\,bc,,d".toList 8 ∧
      place? "name=a\\,bc,,d".toList 13 = some 2 ∧
      ∃ m ≤ 2, place? "name=a\\,bc,,d".toList 9 = some m := by
  obtain ⟨hcount, hword, hmono⟩ := place?_counts_separators "name=a\\,bc,,d".toList
  have hmem : (⟨"bc", 8, 2⟩ : Word) ∈ Word.ofLine "name=a\\,bc,,d".toList := by decide
  have hend : place? "name=a\\,bc,,d".toList 13 = some 2 := hcount 13
  exact ⟨hmem, hcount 9, hword _ hmem 9 (by decide) (by decide), hend, hmono 9 13 (by decide) 2 hend⟩

end ConfigLine

end ScriptIndex
