import Mathlib.Algebra.GroupWithZero.Nat
import ScriptIndex.Position
import ScriptIndex.Proofs.Pieces

namespace ScriptIndex

namespace Text

private theorem toNat_of_isDigit {c : Char} (h : c.isDigit = true) : 48 ≤ c.toNat ∧ c.toNat ≤ 57 := by
  simp only [Char.isDigit, Bool.and_eq_true, decide_eq_true_eq, ge_iff_le, UInt32.le_iff_toNat_le] at h
  exact h

private theorem digit?_of_isDigit {c : Char} (h : c.isDigit = true) :
    digit? c = some (c.toNat - '0'.toNat) := by
  have hle := (toNat_of_isDigit h).2
  rw [digit?, if_pos (by omega), if_pos h]

private theorem isPadding_of_isDigit {c : Char} (h : c.isDigit = true) : isPadding c = false := by
  obtain ⟨hlow, hhigh⟩ := toNat_of_isDigit h
  have hspace : c ≠ ' ' := by
    rintro rfl
    simp at h
  simp only [isPadding, inRanges, wideBlanks, List.any_cons, List.any_nil, Bool.or_false,
    Bool.or_eq_false_iff, beq_eq_false_iff_ne, Bool.and_eq_false_iff, decide_eq_false_iff_not]
  exact ⟨⟨hspace, by omega⟩, by omega⟩

private theorem digits?_of_isDigit {text : List Char} (hne : text ≠ [])
    (h : ∀ c ∈ text, c.isDigit = true) :
    digits? text = some (text.map fun c => c.toNat - '0'.toNat) := by
  induction text with
  | nil => exact absurd rfl hne
  | cons c rest ih =>
    have hc := digit?_of_isDigit (h c List.mem_cons_self)
    have hrest : ∀ c ∈ rest, c.isDigit = true := fun d hd => h d (List.mem_cons_of_mem _ hd)
    cases rest with
    | nil => simp [digits?, hc]
    | cons d rest =>
      have hd : d ≠ '_' := by
        rintro rfl
        simpa using hrest '_' List.mem_cons_self
      rw [digits?.eq_4 _ _ (by simp) (by simpa using hd), hc, ih (by simp) hrest]
      rfl

private theorem unpad_eq {text : List Char} (h : ∀ c ∈ text, isPadding c = false) : unpad text = text := by
  have hdrop {t : List Char} (ht : ∀ c ∈ t, isPadding c = false) : t.dropWhile isPadding = t := by
    cases t with
    | nil => rfl
    | cons c t => rw [List.dropWhile_cons_of_neg (by simp [ht c])]
  rw [unpad, hdrop h, hdrop (by simpa using h), List.reverse_reverse]

/-- The decimal digits of a number are read back as the number, with a minus before them or without. -/
private theorem int?_toDigits {n : Nat} (h : n < 10 ^ digitLimit) :
    int? (Nat.toDigits 10 n) = some (n : Int) ∧ int? ('-' :: Nat.toDigits 10 n) = some (-(n : Int)) := by
  have hdigit : ∀ c ∈ Nat.toDigits 10 n, c.isDigit = true :=
    fun c hc => Nat.isDigit_of_mem_toDigits (by decide) (by decide) hc
  have hpadding : ∀ c ∈ '-' :: Nat.toDigits 10 n, isPadding c = false :=
    List.forall_mem_cons.2 ⟨by decide, fun c hc => isPadding_of_isDigit (hdigit c hc)⟩
  have hdigits := digits?_of_isDigit Nat.toDigits_ne_nil hdigit
  have hlength : (Nat.toDigits 10 n).length ≤ digitLimit :=
    (Nat.length_toDigits_le_iff (by decide) (by decide)).2 h
  have hvalue : ofDigits ((Nat.toDigits 10 n).map fun c => c.toNat - '0'.toNat) = n := by
    rw [ofDigits, List.foldl_map, ← Nat.ofDigitChars_eq_foldl, Nat.ofDigitChars_ten_toDigits]
  -- No digit is a sign.
  have hunsign : unsign (Nat.toDigits 10 n) = (false, Nat.toDigits 10 n) := by
    unfold unsign
    split
    · rename_i hminus
      simpa using hdigit '-' (hminus ▸ List.mem_cons_self)
    · rename_i hplus
      simpa using hdigit '+' (hplus ▸ List.mem_cons_self)
    · rfl
  constructor
  · rw [int?, unpad_eq fun c hc => hpadding c (List.mem_cons_of_mem _ hc), hunsign]
    simp only [hdigits, List.length_map, hlength, hvalue, if_true]
    rfl
  · rw [int?, unpad_eq hpadding, unsign]
    simp only [hdigits, List.length_map, hlength, hvalue, if_true]

private theorem int?_toString {n : Int} (h : n.natAbs < 10 ^ digitLimit) :
    int? (toString n).toList = some n := by
  obtain ⟨hplain, hminus⟩ := int?_toDigits h
  rw [Int.toString_eq_repr, Int.repr_eq_if]
  split
  · rw [Nat.toList_repr, show n.toNat = n.natAbs by omega, hplain]
    congr 1
    omega
  · rw [String.toList_append, Nat.toList_repr, show (-n).toNat = n.natAbs by omega]
    refine hminus.trans (congrArg some ?_)
    omega

/-- The numeral of a number holds no bar. -/
private theorem bar_not_mem_toString (n : Int) : '|' ∉ (toString n).toList := by
  have hdigits (n : Nat) : '|' ∉ Nat.toDigits 10 n := by
    intro h
    simpa using Nat.isDigit_of_mem_toDigits (by decide) (by decide) h
  rw [Int.toString_eq_repr, Int.repr_eq_if]
  split
  · rw [Nat.toList_repr]
    exact hdigits _
  · rw [String.toList_append, Nat.toList_repr]
    intro h
    rcases List.mem_append.1 h with h | h
    · exact absurd h (by decide)
    · exact hdigits _ h

end Text

namespace Position

/-- Whether the numbers of a position have no more digits than a numeral may have. -/
def IsLegible (p : Position) : Prop :=
  p.line.natAbs < 10 ^ Text.digitLimit ∧ p.column.natAbs < 10 ^ Text.digitLimit

/-- A position is read back from its written form. -/
theorem decode?_encode {p : Position} (h : p.IsLegible) : decode? p.encode = some p := by
  have htext : p.encode.toList = (toString p.line).toList ++ '|' :: (toString p.column).toList := by
    simp [encode]
  rw [decode?, htext, List.splitOn_append_cons_self_of_not_mem (Text.bar_not_mem_toString _),
    List.splitOn_eq_singleton (Text.bar_not_mem_toString _)]
  simp only [Text.int?_toString h.1, Text.int?_toString h.2]
  rfl

end Position

end ScriptIndex
