import Mathlib.Data.List.TakeWhile
import ScriptIndex.Word

namespace ScriptIndex

namespace Text

private theorem mem_of_inRanges {ranges : List (Nat × Nat)} {n : Nat} (h : inRanges ranges n = true) :
    n ∈ ranges.flatMap fun r => List.range' r.1 (r.2 + 1 - r.1) := by
  obtain ⟨r, hr, hn⟩ := List.any_eq_true.1 h
  simp only [Bool.and_eq_true, decide_eq_true_eq] at hn
  refine List.mem_flatMap.2 ⟨r, hr, List.mem_range'_1.2 ?_⟩
  omega

/-- No blank is part of a name. -/
private theorem isWordChar_of_isBlank {c : Char} (h : isBlank c = true) : isWordChar c = false := by
  have hall : ∀ n ∈ ((9, 13) :: (0x1c, 0x20) :: wideBlanks).flatMap fun r =>
      List.range' r.1 (r.2 + 1 - r.1), isWordChar (Char.ofNat n) = false := by decide +kernel
  have hmem : inRanges ((9, 13) :: (0x1c, 0x20) :: wideBlanks) c.toNat = true := by
    unfold isBlank isPadding at h
    simp only [inRanges, List.any_cons, List.any_nil, Bool.or_false, Bool.or_eq_true, Bool.and_eq_true,
      decide_eq_true_eq, beq_iff_eq] at h ⊢
    rcases h with ((rfl | h) | h) | h
    · exact .inr (.inl (by decide))
    · exact .inl h
    · exact .inr (.inr h)
    · exact .inr (.inl (by omega))
  have hc := hall c.toNat (mem_of_inRanges hmem)
  rwa [Char.ofNat_toNat] at hc

end Text

namespace Word

inductive Form : List Char → Prop where
  | dotted (name : List Char) : name ≠ [] → (∀ c ∈ name, Text.isWordChar c = true) →
      Form ('.' :: name)
  | qualified (a b : List Char) : a ≠ [] → b ≠ [] → (∀ c ∈ a, Text.isWordChar c = true) →
      (∀ c ∈ b, Text.isWordChar c = true) → Form (a ++ ':' :: b)
  | plain (run : List Char) : run ≠ [] → (∀ c ∈ run, isSeparator c = false) → Form run

theorem take_takeWhile (p : Char → Bool) (text : List Char) :
    text.take (text.takeWhile p).length = text.takeWhile p :=
  (List.prefix_iff_eq_take.1 (List.takeWhile_prefix p)).symm

private theorem form_plain (text : List Char)
    (h : 0 < (text.takeWhile fun c => !isSeparator c).length) :
    Form (text.take (text.takeWhile fun c => !isSeparator c).length) := by
  rw [take_takeWhile]
  refine .plain _ (List.ne_nil_of_length_pos h) fun c hc => ?_
  simpa using List.mem_takeWhile_imp hc

/-- What stands at the front of a text, for the length that the tokenizer takes, has one of the forms. -/
theorem form_lengthAt (text : List Char) (h : 0 < lengthAt text) :
    Form (text.take (lengthAt text)) := by
  revert h
  unfold lengthAt
  dsimp only
  split
  · rename_i rest
    split
    · exact form_plain _
    · rename_i hn
      intro _
      rw [List.take_succ_cons, take_takeWhile]
      exact .dotted _ (fun he => hn (by simp [he])) fun c hc => List.mem_takeWhile_imp hc
  · split
    · rename_i rest hd
      split
      · exact form_plain _
      · rename_i hn
        intro _
        obtain ⟨ha, hb⟩ := not_or.1 hn
        -- The text is the first name, the colon, and what starts with the second name.
        have ht : text = text.takeWhile Text.isWordChar ++ ':' :: rest := by
          rw [← hd]
          exact (take_takeWhile Text.isWordChar text ▸ List.take_append_drop _ text).symm
        have htake : text.take ((text.takeWhile Text.isWordChar).length + 1
            + (rest.takeWhile Text.isWordChar).length) =
              text.takeWhile Text.isWordChar ++ ':' :: rest.takeWhile Text.isWordChar := by
          conv => lhs; arg 2; rw [ht]
          rw [Nat.add_assoc, List.take_length_add_append, Nat.add_comm 1, List.take_succ_cons,
            take_takeWhile]
        rw [htake]
        exact .qualified _ _ (fun he => ha (by simp [he])) (fun he => hb (by simp [he]))
          (fun c hc => List.mem_takeWhile_imp hc) fun c hc => List.mem_takeWhile_imp hc
    · exact form_plain _

theorem mem_scan {lengthAt : List Char → Nat} {column index skip : Nat} {text : List Char} {w : Word}
    (h : w ∈ scan lengthAt column index skip text) :
    ∃ d, skip ≤ d ∧ w.start = column + d ∧ 0 < lengthAt (text.drop d) ∧
      w.value.toList = (text.drop d).take (lengthAt (text.drop d)) := by
  induction text generalizing column index skip with
  | nil => simp [scan] at h
  | cons c rest ih =>
    cases skip with
    | succ skip =>
      obtain ⟨d, hd, hs, hl, hv⟩ := ih h
      exact ⟨d + 1, by omega, by omega, hl, hv⟩
    | zero =>
      unfold scan at h
      split at h
      · obtain ⟨d, hd, hs, hl, hv⟩ := ih h
        exact ⟨d + 1, by omega, by omega, hl, hv⟩
      · rename_i n hn
        rcases List.mem_cons.1 h with rfl | h
        · refine ⟨0, by omega, rfl, ?_, ?_⟩
          · simp [hn]
          · simp [hn]
        · obtain ⟨d, hd, hs, hl, hv⟩ := ih h
          exact ⟨d + 1, by omega, by omega, hl, hv⟩

theorem scan_pairwise (lengthAt : List Char → Nat) (column index skip : Nat) (text : List Char) :
    (scan lengthAt column index skip text).Pairwise fun a b => a.last < b.start := by
  induction text generalizing column index skip with
  | nil => simp [scan]
  | cons c rest ih =>
    cases skip with
    | succ skip => exact ih (column + 1) index skip
    | zero =>
      unfold scan
      split
      · exact ih (column + 1) index 0
      · rename_i n hn
        refine List.pairwise_cons.2 ⟨fun b hb => ?_, ih (column + 1) (index + 1) n⟩
        obtain ⟨d, hd, hs, -, -⟩ := mem_scan hb
        simp only [last, String.length_ofList, List.length_take, List.length_cons]
        omega

theorem scan_index {lengthAt : List Char → Nat} {column index skip i : Nat} {text : List Char}
    {w : Word} (h : (scan lengthAt column index skip text)[i]? = some w) : w.index = index + i := by
  induction text generalizing column index skip i with
  | nil => simp [scan] at h
  | cons c rest ih =>
    cases skip with
    | succ skip => exact ih h
    | zero =>
      unfold scan at h
      split at h
      · exact ih h
      · cases i with
        | zero =>
          simp only [List.getElem?_cons_zero, Option.some.injEq] at h
          subst h
          rfl
        | succ i =>
          have := ih h
          omega

variable {line : Line} {w : Word}

theorem prefix_of_mem_scan {lengthAt : List Char → Nat} (h : w ∈ scan lengthAt 0 0 0 line) :
    w.value.toList <+: line.drop w.start := by
  obtain ⟨d, -, hs, -, hv⟩ := mem_scan h
  rw [hv, hs, Nat.zero_add]
  exact List.take_prefix _ _

theorem prefix_of_mem (h : w ∈ ofLine line) : w.value.toList <+: line.drop w.start :=
  prefix_of_mem_scan h

private theorem value_ne_of_mem_ofLineWithVariables (h : w ∈ ofLineWithVariables line) :
    w.value.toList ≠ [] := by
  obtain ⟨d, -, -, hl, hv⟩ := mem_scan h
  have hne : line.drop d ≠ [] := by
    intro hn
    rw [hn] at hl
    exact absurd hl (by decide)
  rw [hv]
  intro hn
  rcases List.take_eq_nil_iff.1 hn with h0 | h0
  · omega
  · exact hne h0

/-- The words of a line start further to the right one after the other. -/
theorem ofLineWithVariables_pairwise (line : Line) :
    (ofLineWithVariables line).Pairwise fun a b => a.start < b.start := by
  refine (scan_pairwise variableLengthAt 0 0 0 line).imp_of_mem fun {a b} ha _ hab => ?_
  have hlen := List.length_pos_iff.2 (value_ne_of_mem_ofLineWithVariables ha)
  rw [String.length_toList] at hlen
  unfold last at hab
  omega

theorem form_of_mem (h : w ∈ ofLine line) : Form w.value.toList := by
  obtain ⟨d, -, -, hl, hv⟩ := mem_scan h
  rw [hv]
  exact form_lengthAt _ hl

theorem Form.ne_nil {text : List Char} (h : Form text) : text ≠ [] := by
  cases h with
  | dotted name => simp
  | qualified a b => simp
  | plain run hr => exact hr

private theorem wordChar_ne_colon {text : List Char} (h : ∀ c ∈ text, Text.isWordChar c = true) :
    ':' ∉ text := by
  intro hc
  exact absurd (h ':' hc) (by decide)

/-- A word holds at most one colon. -/
theorem Form.count_colon_le {text : List Char} (h : Form text) : text.count ':' ≤ 1 := by
  cases h with
  | dotted name _ hn => simp [List.count_eq_zero.2 (wordChar_ne_colon hn)]
  | qualified a b _ _ ha hb =>
    simp [List.count_eq_zero.2 (wordChar_ne_colon ha), List.count_eq_zero.2 (wordChar_ne_colon hb)]
  | plain run _ hr =>
    have hn : ':' ∉ text := fun hc => absurd (hr ':' hc) (by decide)
    simp [List.count_eq_zero.2 hn]

/-- No word starts with a colon. -/
theorem Form.head?_ne_colon {text : List Char} (h : Form text) : text.head? ≠ some ':' := by
  cases h with
  | dotted name => simp
  | qualified a b hne _ ha =>
    cases a with
    | nil => exact absurd rfl hne
    | cons c a =>
      intro hc
      cases hc
      exact wordChar_ne_colon ha List.mem_cons_self
  | plain run _ hr =>
    intro hc
    exact absurd (hr ':' (List.mem_of_mem_head? hc)) (by decide)

/-- No word ends with a colon. -/
theorem Form.getLast?_ne_colon {text : List Char} (h : Form text) : text.getLast? ≠ some ':' := by
  intro hc
  cases h with
  | dotted name hne hn =>
    rw [List.getLast?_cons, List.getLast?_eq_some_getLast hne, Option.getD_some] at hc
    exact wordChar_ne_colon hn (Option.some.inj hc ▸ List.getLast_mem hne)
  | qualified a b _ hne _ hb =>
    rw [List.getLast?_append, List.getLast?_cons, List.getLast?_eq_some_getLast hne,
      Option.getD_some, Option.some_or] at hc
    exact wordChar_ne_colon hb (Option.some.inj hc ▸ List.getLast_mem hne)
  | plain run _ hr => exact absurd (hr ':' (List.mem_of_getLast? hc)) (by decide)

theorem length_pos_of_mem (h : w ∈ ofLine line) : 0 < w.value.length := by
  rw [← String.length_toList]
  exact List.length_pos_iff.2 (form_of_mem h).ne_nil

/-- A word stands on its line between what comes before its first column and after its last. -/
theorem split_of_mem (h : w ∈ ofLine line) :
    ∃ before after, line = before ++ w.value.toList ++ after ∧ before.length = w.start := by
  obtain ⟨after, ha⟩ := prefix_of_mem h
  refine ⟨line.take w.start, after, ?_, ?_⟩
  · rw [List.append_assoc, ha, List.take_append_drop]
  · have hl := congrArg List.length ha
    have hp := length_pos_of_mem h
    simp only [List.length_append, List.length_drop, String.length_toList] at hl
    rw [List.length_take]
    omega

/-- The place of a word is its place in the list of words. -/
theorem getElem?_index (h : w ∈ ofLine line) : (ofLine line)[w.index]? = some w := by
  obtain ⟨i, hi⟩ := List.mem_iff_getElem?.1 h
  have : w.index = 0 + i := scan_index hi
  rw [this, Nat.zero_add]
  exact hi

private theorem at?_of_mem {words : List Word} {column : Nat}
    (hp : words.Pairwise fun a b => a.last < b.start) (hw : w ∈ words) (hs : w.start ≤ column)
    (hl : column ≤ w.last) : at? words column = some w := by
  induction words with
  | nil => simp at hw
  | cons v words ih =>
    obtain ⟨hv, hp⟩ := List.pairwise_cons.1 hp
    unfold at?
    rcases List.mem_cons.1 hw with rfl | hw
    · rw [if_pos (by simp [covers, hs, hl])]
    · have hlt := hv w hw
      have hcov : v.covers column = false := by
        simp only [covers, Bool.and_eq_false_iff, decide_eq_false_iff_not]
        omega
      have hlt' : ¬ (column : Int) < v.start := by
        unfold last at hlt
        omega
      rw [if_neg (by simp [hcov]), if_neg hlt']
      exact ih hp hw

/-- On every column of a word, that word is found. -/
theorem at?_ofLine {column : Nat} (h : w ∈ ofLine line) (hs : w.start ≤ column)
    (hl : column ≤ w.last) : at? (ofLine line) column = some w :=
  at?_of_mem (scan_pairwise lengthAt 0 0 0 line) h hs hl

private theorem at?_eq_find?_of_pairwise {words : List Word}
    (hp : words.Pairwise fun a b => a.last < b.start) (column : Int) :
    at? words column = words.find? (·.covers column) := by
  induction words with
  | nil => rfl
  | cons first words ih =>
    obtain ⟨hfirst, hp⟩ := List.pairwise_cons.1 hp
    rw [at?, List.find?_cons]
    cases first.covers column with
    | true => rfl
    | false =>
      rw [if_neg Bool.false_ne_true]
      split
      · rename_i hbefore
        refine (List.find?_eq_none.2 fun w hw => ?_).symm
        have hbehind := hfirst w hw
        unfold last at hbehind
        simp only [covers, Bool.and_eq_true, decide_eq_true_eq]
        omega
      · exact ih hp

/-- The search for the word on a column may end at the first word beyond it. -/
theorem at?_eq_find? (line : Line) (column : Int) :
    at? (ofLine line) column = (ofLine line).find? (·.covers column) :=
  at?_eq_find?_of_pairwise (scan_pairwise lengthAt 0 0 0 line) column

theorem mem_of_at? {words : List Word} {column : Int} {w : Word}
    (h : at? words column = some w) : w ∈ words := by
  induction words with
  | nil => cases h
  | cons first words ih =>
    unfold at? at h
    split at h
    · exact Option.some.inj h ▸ List.mem_cons_self
    · split at h
      · cases h
      · exact List.mem_cons_of_mem _ (ih h)

/-- No word stands on a column before the line. -/
theorem nonneg_of_at? {words : List Word} {column : Int} {w : Word}
    (h : at? words column = some w) : 0 ≤ column := by
  induction words with
  | nil => cases h
  | cons first words ih =>
    unfold at? at h
    split at h
    · rename_i hcovers
      simp only [covers, Bool.and_eq_true, decide_eq_true_eq] at hcovers
      omega
    · split at h
      · cases h
      · exact ih h

def reactive : List Char := "\"\\<>(), ".toList

/-- No word holds a character that separates words, apart from the dot and the colon of its form. -/
theorem Form.not_mem {text : List Char} (h : Form text) {c : Char} (hword : Text.isWordChar c = false)
    (hseparator : isSeparator c = true) (hdot : c ≠ '.') (hcolon : c ≠ ':') : c ∉ text := by
  intro hm
  cases h with
  | dotted name _ hn =>
    rcases List.mem_cons.1 hm with hm | hm
    · exact hdot hm
    · simp [hn c hm] at hword
  | qualified a b _ _ ha hb =>
    rcases List.mem_append.1 hm with hm | hm
    · simp [ha c hm] at hword
    · rcases List.mem_cons.1 hm with hm | hm
      · exact hcolon hm
      · simp [hb c hm] at hword
  | plain run _ hr => simp [hr c hm] at hseparator

/-- No word holds a character that a scan reacts to. -/
theorem Form.not_reactive {text : List Char} (h : Form text) {c : Char} (hc : c ∈ text) :
    c ∉ reactive := by
  have hall : (reactive.all fun c =>
      !Text.isWordChar c && isSeparator c && c != '.' && c != ':') = true := by decide
  intro hr
  have hr := List.all_eq_true.1 hall c hr
  simp only [Bool.and_eq_true, Bool.not_eq_true', bne_iff_ne] at hr
  obtain ⟨⟨⟨hword, hseparator⟩, hdot⟩, hcolon⟩ := hr
  exact h.not_mem hword hseparator hdot hcolon hc

theorem isSeparator_of_isWordChar {c : Char} (h : Text.isWordChar c = true) :
    isSeparator c = false := by
  have hall : (separators.all fun c => !Text.isWordChar c) = true := by decide
  rw [isSeparator, Bool.or_eq_false_iff]
  constructor
  · rw [← Bool.not_eq_true, List.contains_iff_mem]
    intro hc
    exact absurd (List.all_eq_true.1 hall c hc) (by simp [h])
  · rw [← Bool.not_eq_true]
    intro hc
    simp [Text.isWordChar_of_isBlank hc] at h

/-- A word ends before the next `$`. -/
private theorem lengthAt_append_dollar_le (front after : List Char) :
    lengthAt (front ++ '$' :: after) ≤ front.length := by
  refine Nat.not_lt.1 fun hlt => ?_
  have hform := form_lengthAt (front ++ '$' :: after) (by omega)
  have hdollar : '$' ∉ (front ++ '$' :: after).take (lengthAt (front ++ '$' :: after)) :=
    hform.not_mem (by decide) (by decide) (by decide) (by decide)
  refine hdollar (List.mem_take_iff_getElem.2 ⟨front.length, ?_, by simp⟩)
  simp only [List.length_append, List.length_cons]
  omega

theorem scan_of_eq_zero {lengthAt : List Char → Nat} {c : Char} {rest : List Char}
    (h : lengthAt (c :: rest) = 0) (column index : Nat) :
    scan lengthAt column index 0 (c :: rest) = scan lengthAt (column + 1) index 0 rest := by
  rw [scan, h]

theorem scan_of_eq_succ {lengthAt : List Char → Nat} {c : Char} {rest : List Char} {n : Nat}
    (h : lengthAt (c :: rest) = n + 1) (column index : Nat) :
    scan lengthAt column index 0 (c :: rest) =
      ⟨String.ofList ((c :: rest).take (n + 1)), column, index⟩ ::
        scan lengthAt (column + 1) (index + 1) n rest := by
  rw [scan, h]

/-- Up to a character that no word reaches stand some words of a text, and behind it those of what
follows. -/
theorem scan_append {lengthAt : List Char → Nat} {c : Char} {after : List Char}
    (hle : ∀ front, lengthAt (front ++ c :: after) ≤ front.length) (column index skip : Nat)
    (front : List Char) (h : skip ≤ front.length) :
    ∃ words, scan lengthAt column index skip (front ++ c :: after) =
        words ++ scan lengthAt (column + front.length + 1) (index + words.length) 0 after ∧
      ∀ w ∈ words, w.start ≤ column + front.length := by
  induction front generalizing column index skip with
  | nil =>
    obtain rfl : skip = 0 := by simpa using h
    exact ⟨[], scan_of_eq_zero (Nat.le_zero.1 (hle [])) column index, by simp⟩
  | cons d front ih =>
    have hcolumn : column + 1 + front.length = column + (d :: front).length := by
      rw [List.length_cons]
      omega
    rw [List.cons_append, ← hcolumn]
    cases skip with
    | succ skip =>
      obtain ⟨words, hw, hstart⟩ := ih (column + 1) index skip (by simpa using h)
      exact ⟨words, by rw [scan, hw], hstart⟩
    | zero =>
      have hle := hle (d :: front)
      rw [List.cons_append] at hle
      cases hl : lengthAt (d :: (front ++ c :: after)) with
      | zero =>
        obtain ⟨words, hw, hstart⟩ := ih (column + 1) index 0 (Nat.zero_le _)
        exact ⟨words, by rw [scan_of_eq_zero hl, hw], hstart⟩
      | succ n =>
        obtain ⟨words, hw, hstart⟩ := ih (column + 1) (index + 1) n (by simpa [hl] using hle)
        let first : Word := ⟨String.ofList ((d :: (front ++ c :: after)).take (n + 1)), column, index⟩
        have hindex : index + 1 + words.length = index + (first :: words).length := by
          rw [List.length_cons]
          omega
        refine ⟨first :: words, ?_, List.forall_mem_cons.2 ⟨by dsimp only [first]; omega, hstart⟩⟩
        rw [scan_of_eq_succ hl, hw, hindex]
        rfl

def endsBefore : List Char → Bool
  | [] => true
  | ':' :: c :: _ => !Text.isWordChar c
  | c :: _ => isSeparator c

theorem takeWhile_name {name after : List Char} (hname : ∀ c ∈ name, Text.isWordChar c = true)
    (hafter : ∀ c ∈ after.head?, Text.isWordChar c = false) :
    (name ++ after).takeWhile Text.isWordChar = name := by
  rw [List.takeWhile_append_of_pos hname]
  cases after with
  | nil => simp
  | cons c after => simp [hafter c rfl]

/-- A word that starts with a name is the name exactly if the name ends there. -/
private theorem lengthAt_append_name {name after : List Char} (hne : name ≠ [])
    (hname : ∀ c ∈ name, Text.isWordChar c = true)
    (hafter : ∀ c ∈ after.head?, Text.isWordChar c = false) :
    name.length ≤ lengthAt (name ++ after) ∧
      (lengthAt (name ++ after) = name.length ↔ endsBefore after = true) := by
  have hrun := takeWhile_name hname hafter
  have hplain : ((name ++ after).takeWhile fun c => !isSeparator c).length =
      name.length + (after.takeWhile fun c => !isSeparator c).length := by
    rw [List.takeWhile_append_of_pos fun c hc => by simp [isSeparator_of_isWordChar (hname c hc)],
      List.length_append]
  unfold lengthAt
  dsimp only
  split
  · -- No name starts with a dot.
    rename_i rest hdot
    cases name with
    | nil => exact absurd rfl hne
    | cons c name =>
      obtain ⟨rfl, -⟩ := List.cons.inj hdot
      exact absurd (hname '.' List.mem_cons_self) (by decide)
  · rw [hrun, List.drop_left, hplain]
    have hcolon : isSeparator ':' = true := by decide
    cases after with
    | nil => simp [endsBefore]
    | cons c after =>
      by_cases hc : c = ':'
      · subst hc
        have hn : name.length ≠ 0 := by simpa using hne
        cases after with
        | nil => simp [endsBefore, hcolon]
        | cons d after =>
          cases hd : Text.isWordChar d <;> simp [endsBefore, hcolon, hd, hn]
          omega
      · cases hs : isSeparator c <;> simp [endsBefore, hs, hc]

/-- Behind a `$` that stands before a name stands a word, which is the name exactly if the name ends
there. -/
theorem exists_behind_dollar {text : Line} {column : Nat} {name after : List Char}
    (htext : text.drop column = '$' :: (name ++ after)) (hne : name ≠ [])
    (hname : ∀ c ∈ name, Text.isWordChar c = true)
    (hafter : ∀ c ∈ after.head?, Text.isWordChar c = false) :
    ∃ w ∈ ofLine text, w.start = column + 1 ∧ (w.value.toList = name ↔ endsBefore after = true) := by
  have hlength : (text.take column).length = column := by
    have hlt := congrArg List.length htext
    simp only [List.length_drop, List.length_cons] at hlt
    rw [List.length_take]
    omega
  obtain ⟨words, hwords, -⟩ := scan_append (lengthAt_append_dollar_le · (name ++ after)) 0 0 0
    (text.take column) (Nat.zero_le _)
  rw [← htext, List.take_append_drop, hlength] at hwords
  obtain ⟨hle, hends⟩ := lengthAt_append_name hne hname hafter
  obtain ⟨c, rest, hrest⟩ := List.exists_cons_of_ne_nil (List.append_ne_nil_of_left_ne_nil hne after)
  obtain ⟨n, hn⟩ := Nat.exists_eq_add_of_lt
    (Nat.lt_of_lt_of_le (List.length_pos_iff.2 hne) hle)
  rw [Nat.zero_add] at hn
  rw [hrest, scan_of_eq_succ (hrest ▸ hn)] at hwords
  refine ⟨⟨String.ofList ((c :: rest).take (n + 1)), column + 1, words.length⟩, ?_, rfl, ?_⟩
  · rw [ofLine, hwords]
    simp
  · rw [String.toList_ofList, ← hrest, ← hn]
    constructor
    · intro hvalue
      cases after with
      | nil => rfl
      | cons d after =>
        have hl := congrArg List.length hvalue
        simp only [List.length_take, List.length_append, List.length_cons] at hl
        exact hends.1 (by omega)
    · intro h
      rw [hends.2 h, List.take_left]

/-- Behind a word that is a single name stands no further character of a name. -/
theorem head?_drop_lengthAt {text : List Char}
    (hname : ∀ c ∈ text.take (lengthAt text), Text.isWordChar c = true) :
    ∀ c ∈ (text.drop (lengthAt text)).head?, Text.isWordChar c = false := by
  have hplain : lengthAt text = (text.takeWhile fun c => !isSeparator c).length := by
    revert hname
    unfold lengthAt
    dsimp only
    split
    · split
      · exact fun _ => rfl
      · exact fun hname => absurd (hname '.' (by simp)) (by decide)
    · split
      · rename_i rest hcolon
        split
        · exact fun _ => rfl
        · refine fun hname => absurd (hname ':' ?_) (by decide)
          have hmem : (text.take ((text.takeWhile Text.isWordChar).length + 1 +
              (rest.takeWhile Text.isWordChar).length))[(text.takeWhile Text.isWordChar).length]? =
                some ':' := by
            rw [List.getElem?_take_of_lt (by omega), ← List.head?_drop, hcolon]
            rfl
          exact List.mem_of_getElem? hmem
      · exact fun _ => rfl
  intro c hc
  have hdrop : text.drop (lengthAt text) = text.dropWhile fun c => !isSeparator c := by
    rw [hplain]
    conv => lhs; arg 2; rw [← List.takeWhile_append_dropWhile (p := fun c => !isSeparator c) (l := text)]
    rw [List.drop_left]
  have hseparator := List.head?_dropWhile_not (fun c => !isSeparator c) text
  rw [← hdrop, hc] at hseparator
  rw [← Bool.not_eq_true]
  intro hword
  simp [isSeparator_of_isWordChar hword] at hseparator

end Word

end ScriptIndex
