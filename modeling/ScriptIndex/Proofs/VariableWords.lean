import Mathlib.Data.List.DropRight
import ScriptIndex.Proofs.Words

namespace ScriptIndex.Word

/-- Names in a row, each behind its own `$`. -/
inductive Variables : List Char → Prop where
  | nil : Variables []
  | cons {name rest : List Char} : name ≠ [] → (∀ c ∈ name, Text.isWordChar c = true) →
      Variables rest → Variables ('$' :: (name ++ rest))

/-- The characters of a text behind the last one that separates words when local variables are looked
for. -/
def trailingRun (text : List Char) : List Char :=
  text.rtakeWhile fun c => !isSeparatorButDollar c

private theorem isWordChar_of_isSeparatorButDollar {c : Char} (h : isSeparatorButDollar c = true) :
    Text.isWordChar c = false := by
  rw [isSeparatorButDollar, Bool.and_eq_true] at h
  rw [← Bool.not_eq_true]
  intro hword
  simp [isSeparator_of_isWordChar hword] at h

private theorem length_takeWhile_append_le {p : Char → Bool} {c : Char} (h : p c = false)
    (front after : List Char) : ((front ++ c :: after).takeWhile p).length ≤ front.length := by
  rw [List.takeWhile_append, List.takeWhile_cons_of_neg (by simp [h])]
  split
  · simp
  · exact (List.takeWhile_prefix p).length_le

/-- A word ends before the next separator. -/
private theorem variableLengthAt_append_le {c : Char} (h : isSeparatorButDollar c = true)
    (front after : List Char) : variableLengthAt (front ++ c :: after) ≤ front.length := by
  have hplain : ((front ++ c :: after).takeWhile fun c => !isSeparatorButDollar c).length ≤
      front.length := length_takeWhile_append_le (by simp [h]) front after
  unfold variableLengthAt
  dsimp only
  split
  · rename_i rest hdollar
    split
    · exact hplain
    · cases front with
      | nil =>
        obtain ⟨rfl, -⟩ := List.cons.inj hdollar
        exact absurd h (by decide)
      | cons d front =>
        obtain ⟨-, rfl⟩ := List.cons.inj hdollar
        rw [List.length_cons]
        exact Nat.succ_le_succ
          (length_takeWhile_append_le (isWordChar_of_isSeparatorButDollar h) front after)
  · exact hplain

/-- A `$` with a name behind it is a word. -/
private theorem variableLengthAt_dollar {name after : List Char} (hne : name ≠ [])
    (hname : ∀ c ∈ name, Text.isWordChar c = true)
    (hafter : ∀ c ∈ after.head?, Text.isWordChar c = false) :
    variableLengthAt ('$' :: (name ++ after)) = name.length + 1 := by
  show (if ((name ++ after).takeWhile Text.isWordChar).length = 0 then _ else _) = _
  rw [takeWhile_name hname hafter, if_neg (by simpa using hne)]

theorem Variables.head? {text : List Char} (h : Variables text) :
    ∀ c ∈ text.head?, Text.isWordChar c = false := by
  cases h with
  | nil => simp
  | cons => exact fun c hc => Option.some.inj hc ▸ by decide

/-- The first of some names in a row is all that a `$` at the front is followed by. -/
private theorem variables_cons_iff {name rest : List Char} (hne : name ≠ [])
    (hname : ∀ c ∈ name, Text.isWordChar c = true)
    (hrest : ∀ c ∈ rest.head?, Text.isWordChar c = false) :
    Variables ('$' :: (name ++ rest)) ↔ Variables rest := by
  refine ⟨fun h => ?_, .cons hne hname⟩
  generalize htext : '$' :: (name ++ rest) = text at h
  cases h with
  | nil => cases htext
  | @cons name' rest' hne' hname' h' =>
    obtain ⟨-, htext⟩ := List.cons.inj htext
    have hnames : name = name' := by
      rw [← takeWhile_name hname hrest, htext, takeWhile_name hname' h'.head?]
    rw [hnames, List.append_cancel_left_eq] at htext
    exact htext ▸ h'

/-- A text that starts with a character of a name starts with a whole name. -/
private theorem exists_first_name {text : List Char} (h : text.takeWhile Text.isWordChar ≠ []) :
    ∃ name rest, text = name ++ rest ∧ name ≠ [] ∧ (∀ c ∈ name, Text.isWordChar c = true) ∧
      ∀ c ∈ rest.head?, Text.isWordChar c = false := by
  refine ⟨_, text.dropWhile Text.isWordChar, List.takeWhile_append_dropWhile.symm, h,
    fun c hc => List.mem_takeWhile_imp hc, fun c hc => ?_⟩
  have hrest := List.head?_dropWhile_not Text.isWordChar text
  rw [hc] at hrest
  simpa using hrest

/-- A scan passes over the rest of a word. -/
private theorem scan_skip (lengthAt : List Char → Nat) (column index : Nat) (front text : List Char) :
    scan lengthAt column index front.length (front ++ text) =
      scan lengthAt (column + front.length) index 0 text := by
  induction front generalizing column with
  | nil => rfl
  | cons c front ih =>
    rw [List.length_cons, List.cons_append, scan, ih, Nat.add_right_comm, Nat.add_assoc]

/-- A run of characters that does not start with a `$` and a name goes on over the next `$`. -/
private theorem lt_variableLengthAt {c : Char} {run : List Char}
    (hrun : ∀ d ∈ c :: run, isSeparatorButDollar d = false)
    (h : c = '$' → run.takeWhile Text.isWordChar = []) (after : List Char) :
    (c :: run).length < variableLengthAt (c :: (run ++ '$' :: after)) := by
  have hplain : (c :: run).length <
      ((c :: (run ++ '$' :: after)).takeWhile fun c => !isSeparatorButDollar c).length := by
    have hdollar : isSeparatorButDollar '$' = false := by decide
    rw [← List.cons_append, List.takeWhile_append_of_pos fun d hd => by simp [hrun d hd],
      List.takeWhile_cons_of_pos (by simp [hdollar])]
    simp only [List.length_append, List.length_cons]
    omega
  unfold variableLengthAt
  dsimp only
  split
  · rename_i rest hdollar
    obtain ⟨rfl, rfl⟩ := List.cons.inj hdollar
    have hword : Text.isWordChar '$' = false := by decide
    have hnone : (run ++ '$' :: after).takeWhile Text.isWordChar = [] := by
      rw [List.takeWhile_append, h rfl, List.takeWhile_cons_of_neg (by simp [hword]), List.append_nil]
      split
      · rename_i hlength
        exact List.length_eq_zero_iff.1 hlength.symm
      · rfl
    rwa [hnone, List.length_nil, if_pos rfl]
  · exact hplain

/-- No word starts inside the first word of a scan. -/
private theorem start_ne_of_lt {lengthAt : List Char → Nat} {column index n : Nat} {c : Char}
    {rest : List Char}
    (hn : n < lengthAt (c :: rest)) (hpositive : 0 < n) {w : Word}
    (hw : w ∈ scan lengthAt column index 0 (c :: rest)) : w.start ≠ column + n := by
  obtain ⟨length, hlength⟩ := Nat.exists_eq_add_of_lt hn
  rw [scan_of_eq_succ hlength] at hw
  rcases List.mem_cons.1 hw with rfl | hw
  · dsimp only
    omega
  · obtain ⟨d, hd, hs, -⟩ := mem_scan hw
    omega

/-- A scan starts anew behind the last separator of a text. -/
private theorem ofLineWithVariables_append (front rest : List Char) :
    ∃ words column index, column + (trailingRun front).length = front.length ∧
      ofLineWithVariables (front ++ rest) =
        words ++ scan variableLengthAt column index 0 (trailingRun front ++ rest) ∧
      ∀ w ∈ words, w.start < column := by
  have hsplit : front.rdropWhile (fun c => !isSeparatorButDollar c) ++ trailingRun front = front :=
    List.rdropWhile_append_rtakeWhile
  rcases List.eq_nil_or_concat (front.rdropWhile fun c => !isSeparatorButDollar c) with
    hhead | ⟨init, c, hhead⟩
  · rw [hhead, List.nil_append] at hsplit
    exact ⟨[], 0, 0, by rw [hsplit, Nat.zero_add], by rw [hsplit]; rfl, by simp⟩
  · have hc : isSeparatorButDollar c = true := by
      have hlast := List.rdropWhile_last_not (fun c => !isSeparatorButDollar c) front (by simp [hhead])
      simpa [hhead] using hlast
    rw [hhead] at hsplit
    obtain ⟨words, hscan, hstart⟩ := scan_append (variableLengthAt_append_le hc · (trailingRun front ++ rest))
      0 0 0 init (Nat.zero_le _)
    refine ⟨words, init.length + 1, words.length, ?_, ?_, fun w hw => by have := hstart w hw; omega⟩
    · rw [← congrArg List.length hsplit]
      simp only [List.concat_eq_append, List.length_append, List.length_singleton]
    · rw [Nat.zero_add, Nat.zero_add] at hscan
      rw [ofLineWithVariables, ← hscan]
      conv => lhs; rw [← hsplit]
      simp

section
variable {name after : List Char} (hne : name ≠ []) (hname : ∀ c ∈ name, Text.isWordChar c = true)
  (hafter : ∀ c ∈ after.head?, Text.isWordChar c = false)
include hne hname hafter

/-- A scan takes a `$` with its name and goes on behind them. -/
private theorem scan_dollar (column index : Nat) :
    scan variableLengthAt column index 0 ('$' :: (name ++ after)) =
      ⟨String.ofList ('$' :: name), column, index⟩ ::
        scan variableLengthAt (column + 1 + name.length) (index + 1) 0 after := by
  rw [scan_of_eq_succ (variableLengthAt_dollar hne hname hafter), scan_skip, List.take_succ_cons,
    List.take_left]

/-- Behind a run of characters that do not separate, a word starts at a `$` with a name exactly if the run
is made of such words. -/
private theorem starts_behind_run_iff {run : List Char} (hrun : ∀ c ∈ run, isSeparatorButDollar c = false)
    (column index : Nat) :
    (∃ w ∈ scan variableLengthAt column index 0 (run ++ '$' :: (name ++ after)),
      w.start = column + run.length) ↔ Variables run := by
  induction hlength : run.length using Nat.strong_induction_on generalizing run column index with
  | _ length ih =>
  subst hlength
  cases run with
  | nil =>
    rw [List.nil_append, scan_dollar hne hname hafter]
    exact iff_of_true ⟨_, List.mem_cons_self, rfl⟩ .nil
  | cons c run =>
    by_cases hfirst : c = '$' ∧ run.takeWhile Text.isWordChar ≠ []
    · -- The scan takes the first name and goes on behind it.
      obtain ⟨rfl, hfirst⟩ := hfirst
      obtain ⟨first, rest, rfl, hne', hname', hrest⟩ := exists_first_name hfirst
      have hbehind : ∀ c ∈ (rest ++ '$' :: (name ++ after)).head?, Text.isWordChar c = false := by
        cases rest with
        | nil => exact fun c hc => Option.some.inj hc ▸ by decide
        | cons d rest => exact hrest
      have hstart : column + ('$' :: (first ++ rest)).length =
          column + 1 + first.length + rest.length := by
        simp only [List.length_cons, List.length_append]
        omega
      rw [variables_cons_iff hne' hname' hrest, List.cons_append, List.append_assoc,
        scan_dollar hne' hname' hbehind, hstart,
        ← ih rest.length (by simp only [List.length_cons, List.length_append]; omega)
          (fun c hc => hrun c (by simp [hc])) (column + 1 + first.length) (index + 1) rfl,
        List.exists_mem_cons_iff]
      exact or_iff_right fun h => by dsimp only at h; omega
    · -- The first word reaches over the `$`, so that none starts there.
      have hlt := lt_variableLengthAt hrun (fun hc => by_contra fun h => hfirst ⟨hc, h⟩) (name ++ after)
      refine iff_of_false ?_ fun hvariables => hfirst ?_
      · rintro ⟨w, hw, hstart⟩
        exact start_ne_of_lt hlt (by simp) hw hstart
      · generalize htext : c :: run = text at hvariables
        obtain _ | @⟨name', rest', hne', hname', h'⟩ := hvariables
        · cases htext
        · obtain ⟨rfl, rfl⟩ := List.cons.inj htext
          rw [takeWhile_name hname' h'.head?]
          exact ⟨rfl, hne'⟩

/-- Where a `$` and a name stand on a line, a word starts exactly if the run before is made of names, each
behind its own `$`. The word is then the `$` and the name. -/
theorem exists_variable_iff {line : Line} {column : Nat}
    (hline : line.drop column = '$' :: (name ++ after)) :
    (∃ w ∈ ofLineWithVariables line, w.start = column ∧ w.value.toList = '$' :: name) ↔
      Variables (trailingRun (line.take column)) := by
  have hlength : (line.take column).length = column := by
    have hlt := congrArg List.length hline
    simp only [List.length_drop, List.length_cons] at hlt
    rw [List.length_take]
    omega
  have hvalue : (∃ w ∈ ofLineWithVariables line, w.start = column ∧ w.value.toList = '$' :: name) ↔
      ∃ w ∈ ofLineWithVariables line, w.start = column := by
    refine exists_congr fun w => and_congr_right fun hw => and_iff_left_of_imp fun hstart => ?_
    obtain ⟨d, -, hs, -, hv⟩ := mem_scan hw
    rw [hv, ← Nat.zero_add d, ← hs, hstart, hline, variableLengthAt_dollar hne hname hafter,
      List.take_succ_cons, List.take_left]
  have hrun : ∀ c ∈ trailingRun (line.take column), isSeparatorButDollar c = false :=
    fun c hc => by simpa using List.mem_rtakeWhile_imp hc
  obtain ⟨words, start, index, hlead, hscan, hwords⟩ :=
    ofLineWithVariables_append (line.take column) ('$' :: (name ++ after))
  rw [hlength] at hlead
  rw [← hline, List.take_append_drop] at hscan
  rw [hvalue, ← starts_behind_run_iff hne hname hafter hrun start index, hlead, ← hline, hscan]
  refine exists_congr fun w => and_congr_left fun hstart => ?_
  rw [List.mem_append]
  exact or_iff_right fun hw => absurd (hwords w hw) (by omega)

end

end ScriptIndex.Word
