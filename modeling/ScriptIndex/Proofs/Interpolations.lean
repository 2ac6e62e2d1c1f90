import Mathlib.Data.List.Infix
import ScriptIndex.Proofs.CursorIndependence

namespace ScriptIndex.CallSite

/-- A text in which no front closes more angle brackets than it opens, and in the end all are closed. -/
structure Balanced (inner : List Char) : Prop where
  front : ∀ front, front <+: inner → front.count '>' ≤ front.count '<'
  whole : inner.count '<' = inner.count '>'

instance (inner : List Char) : Decidable (Balanced inner) :=
  decidable_of_iff ((∀ front ∈ inner.inits, front.count '>' ≤ front.count '<') ∧
      inner.count '<' = inner.count '>')
    ⟨fun h => ⟨fun front hf => h.1 front ((List.mem_inits _ _).2 hf), h.2⟩,
      fun h => ⟨fun front hf => h.front front ((List.mem_inits _ _).1 hf), h.whole⟩⟩

/-- No back of a balanced text opens more angle brackets than it closes. -/
private theorem Balanced.back {inner back : List Char} (h : Balanced inner) (hb : back <:+ inner) :
    back.count '<' ≤ back.count '>' := by
  obtain ⟨front, rfl⟩ := hb
  have hfront := h.front front (List.prefix_append front back)
  have hwhole := h.whole
  simp only [List.count_append] at hwhole
  omega

def interpolation (inner : List Char) : List Char :=
  '<' :: (inner ++ ['>'])

/-- Inside an interpolation nothing counts but angle brackets, as long as the interpolation is not
left. -/
private theorem back_inside {text : List Char} (depth : Nat)
    (h : ∀ front, front <+: text → front.count '<' ≤ depth + front.count '>')
    (s : State) (rest : List Char) :
    back { s with interpolations := depth + 1 } (text ++ rest) =
      back { s with interpolations := depth + text.count '>' - text.count '<' + 1 } rest := by
  induction text generalizing depth with
  | nil => rfl
  | cons c text ih =>
    have htext (front : List Char) (hf : front <+: text) :
        (c :: front).count '<' ≤ depth + (c :: front).count '>' :=
      h _ (List.cons_prefix_cons.2 ⟨rfl, hf⟩)
    rw [List.cons_append, back]
    by_cases hclose : c = '>'
    · subst hclose
      have hstep := ih (depth + 1) fun front hf => by
        have := htext front hf
        simp at this
        omega
      simp only [if_true, hstep]
      congr 2
      simp
      omega
    by_cases hopen : c = '<'
    · subst hopen
      -- The interpolation is not left here, so it is an inner one that opens.
      have hdepth : 1 ≤ depth := by simpa using htext [] List.nil_prefix
      have hstep := ih (depth - 1) fun front hf => by
        have := htext front hf
        simp at this
        omega
      have hinside : depth + 1 - 1 = depth - 1 + 1 := by omega
      simp only [if_neg hclose, Nat.succ_pos, if_true, hinside, hstep]
      congr 2
      simp
      omega
    · have hstep := ih depth fun front hf => by
        simpa [hclose, hopen] using htext front hf
      simp only [if_neg hclose, if_neg hopen, Nat.succ_pos, if_true, hstep]
      simp [hclose, hopen]

/-- The way back passes over an interpolation and is in the same state before it as behind it. -/
theorem back_interpolation {inner : List Char} (h : Balanced inner) (s : State) (rest : List Char) :
    back s ((interpolation inner).reverse ++ rest) = back s rest := by
  have hreverse : (interpolation inner).reverse ++ rest = '>' :: (inner.reverse ++ '<' :: rest) := by
    simp [interpolation]
  have hinside (front : List Char) (hf : front <+: inner.reverse) :
      front.count '<' ≤ s.interpolations + front.count '>' := by
    have hback := h.back (List.reverse_prefix.1 (by simpa using hf) : front.reverse <:+ inner)
    simp only [List.count_reverse] at hback
    omega
  have hwhole := h.whole
  rw [hreverse, back, if_pos rfl, back_inside s.interpolations hinside, List.count_reverse, List.count_reverse,
    hwhole, Nat.add_sub_cancel, back]
  simp

/-- What is found on the way back is this character, a parenthesis, or found further on. -/
private theorem back_cons_cases {s : State} {c : Char} {rest : List Char} {found : Nat × Nat}
    (h : back s (c :: rest) = some found) :
    (c = '(' ∧ found.1 = rest.length) ∨ ∃ t, back t rest = some found := by
  rw [back] at h
  grind

/-- What is found on the way back is an open parenthesis. -/
private theorem getElem?_of_back {s : State} {text : List Char} {found : Nat × Nat}
    (h : back s text = some found) : text.reverse[found.1]? = some '(' := by
  induction text generalizing s with
  | nil => cases h
  | cons c rest ih =>
    rw [List.reverse_cons]
    rcases back_cons_cases h with ⟨rfl, hcolumn⟩ | ⟨t, ht⟩
    · simp [hcolumn]
    · have hfound := ih ht
      obtain ⟨hlt, -⟩ := List.getElem?_eq_some_iff.1 hfound
      rw [List.getElem?_append_left hlt, hfound]

def moved (front n : Nat) (found : Nat × Nat) : Nat × Nat :=
  (if found.1 < front then found.1 else found.1 + n, found.2)

/-- One step back over the same character, where a backslash stands before both or before none. -/
private theorem back_cons_map {f : Nat × Nat → Nat × Nat} {rest rest' : List Char}
    (hescape : (rest'.head? == some '\\') = (rest.head? == some '\\'))
    (hlength : ∀ commas, f (rest.length, commas) = (rest'.length, commas))
    (hrest : ∀ s, back s rest' = (back s rest).map f) (s : State) (c : Char) :
    back s (c :: rest') = (back s (c :: rest)).map f := by
  rw [back, back, hescape]
  simp only [hrest, apply_ite (Option.map f), Option.map_none, Option.map_some, hlength]

/-- On the way back from a cursor, an interpolation between what was read and what is to be read moves
what is found behind it, and changes nothing else. -/
private theorem back_append_interpolation {inner front : List Char} (h : Balanced inner)
    (hfront : front.getLast? ≠ some '\\') (s : State) (middle : List Char) :
    back s (middle ++ ((interpolation inner).reverse ++ front.reverse)) =
      (back s (middle ++ front.reverse)).map (moved front.length (interpolation inner).length) := by
  induction middle generalizing s with
  | nil =>
    rw [List.nil_append, List.nil_append, back_interpolation h]
    cases hfound : back s front.reverse with
    | none => rfl
    | some found =>
      obtain ⟨hlt, -⟩ := List.getElem?_eq_some_iff.1 (getElem?_of_back hfound)
      rw [List.reverse_reverse] at hlt
      simp [moved, hlt]
  | cons c middle ih =>
    refine back_cons_map ?_ (fun commas => ?_) ih s c
    · cases middle with
      | cons d middle => rfl
      | nil =>
        have hhead : front.reverse.head? ≠ some '\\' := by rwa [List.head?_reverse]
        simpa [interpolation] using hhead
    · simp only [moved, List.length_append, List.length_reverse]
      rw [if_neg (by omega)]
      congr 1
      omega

/-- Of what stands before the cursor, it only matters whether a quote behind it counts. -/
private theorem quotesOdd_congr {previous previous' : Option Char}
    (h : previous.any (· ≠ '\\') = previous'.any (· ≠ '\\')) (depth : Nat) (odd : Bool)
    (text : List Char) : quotesOdd previous depth odd text = quotesOdd previous' depth odd text := by
  cases text with
  | nil => rfl
  | cons c text =>
    unfold quotesOdd
    rw [h]

/-- An interpolation somewhere before the cursor, and not behind a backslash, only moves the
parenthesis that is found. -/
private theorem opening?_append_interpolation {inner front : List Char} (h : Balanced inner)
    (hfront : front.getLast? ≠ some '\\') (middle after : List Char) :
    opening? (front ++ interpolation inner ++ middle ++ after)
        (front ++ interpolation inner ++ middle).length =
      (opening? (front ++ middle ++ after) (front ++ middle).length).map
        (moved front.length (interpolation inner).length) := by
  rw [opening?_append, opening?_append, List.append_assoc, List.reverse_append, List.reverse_append,
    List.reverse_append, List.append_assoc, back_append_interpolation h hfront]
  by_cases hstart : front ++ middle = []
  · -- A cursor at the start of the line is in no call.
    obtain ⟨rfl, rfl⟩ := List.append_eq_nil_iff.1 hstart
    rfl
  · refine congrArg (fun inText => (back { inText := inText } _).map _) (quotesOdd_congr ?_ 0 false after)
    cases middle with
    | cons c middle => simp [List.getLast?_append, List.getLast?_cons]
    | nil =>
      have hne : front ≠ [] := by simpa using hstart
      rw [List.getLast?_eq_some_getLast hne] at hfront
      have hlast : front.getLast hne ≠ '\\' := fun he => hfront (by rw [he])
      simp [interpolation, List.getLast?_append, List.getLast?_cons, List.getLast?_eq_some_getLast hne,
        hlast]

/-- What is found around a cursor is an open parenthesis of the line. -/
private theorem getElem?_of_opening? {text : Line} {cursor : Nat} {found : Nat × Nat}
    (h : opening? text cursor = some found) : text[found.1]? = some '(' := by
  have hparen := getElem?_of_back h
  rw [List.reverse_reverse] at hparen
  obtain ⟨hlt, -⟩ := List.getElem?_eq_some_iff.1 hparen
  rwa [List.getElem?_take_of_lt (by simpa using (List.length_take_le cursor text).trans_lt' hlt)] at hparen

/-- An interpolation that is put into a line before the cursor, and not behind a backslash, only moves the
parenthesis that is found. -/
theorem opening?_insert (text : Line) {cursor place : Nat} (hcursor : cursor ≤ text.length)
    (hplace : place ≤ cursor) (hbackslash : place = 0 ∨ text[place - 1]? ≠ some '\\')
    {inner : List Char} (hinner : Balanced inner) :
    opening? (text.take place ++ interpolation inner ++ text.drop place)
        (cursor + (interpolation inner).length) =
      (opening? text cursor).map (moved place (interpolation inner).length) := by
  have hfront : (text.take place).getLast? ≠ some '\\' := by
    rw [List.getLast?_take]
    split
    · simp
    · rename_i hpositive
      obtain ⟨c, hc⟩ : ∃ c, text[place - 1]? = some c :=
        ⟨_, List.getElem?_eq_getElem (show place - 1 < text.length by omega)⟩
      rw [hc, Option.some_or, ← hc]
      exact hbackslash.resolve_left hpositive
  -- The line is what stands before the place, then up to the cursor, and behind it.
  have hmiddle : text.take place ++ (text.drop place).take (cursor - place) = text.take cursor := by
    rw [← List.take_add, Nat.add_sub_cancel' hplace]
  have hdrop : (text.drop place).take (cursor - place) ++ text.drop cursor = text.drop place := by
    conv => rhs; rw [← List.take_append_drop (cursor - place) (text.drop place)]
    rw [List.drop_drop, Nat.add_sub_cancel' hplace]
  have hlength : (text.take place).length = place := List.length_take_of_le (by omega)
  have hcursorLength : (text.take place ++ interpolation inner ++
      (text.drop place).take (cursor - place)).length = cursor + (interpolation inner).length := by
    simp only [List.length_append, List.length_take, List.length_drop]
    omega
  have hopening := opening?_append_interpolation hinner hfront
    ((text.drop place).take (cursor - place)) (text.drop cursor)
  rwa [hmiddle, List.take_append_drop, List.length_take_of_le hcursor, hlength, hcursorLength,
    List.append_assoc _ _ (text.drop cursor), hdrop] at hopening

/-- A closed interpolation that is put into a line before the cursor, and not behind a backslash, makes
no difference to the call around the cursor: it is found exactly if it was, at the same parenthesis, and
the place of the argument is the same. -/
theorem findAt_interpolation (text : Line) {cursor place : Nat} (hcursor : cursor ≤ text.length)
    (hplace : place ≤ cursor) (hbackslash : place = 0 ∨ text[place - 1]? ≠ some '\\')
    {inner : List Char} (hinner : Balanced inner) :
    let chunk := interpolation inner
    let longer := text.take place ++ chunk ++ text.drop place
    let parenthesis (column : Nat) := if column < place then column else column + chunk.length
    (∀ found, opening? text cursor = some found → text[found.1]? = some '(') ∧
      opening? longer (cursor + chunk.length) =
        (opening? text cursor).map (fun (column, commas) => (parenthesis column, commas)) ∧
      ∀ words, findAt longer (cursor + chunk.length : Nat) words =
        .ok ((opening? text cursor).map fun (column, commas) =>
          (Word.at? words ((parenthesis column : Int) - 1), commas)) := by
  intro chunk longer parenthesis
  have hopening := opening?_insert text hcursor hplace hbackslash hinner
  refine ⟨fun found hfound => getElem?_of_opening? hfound, hopening, fun words => ?_⟩
  rw [findAt, if_pos (Int.natCast_nonneg _), Int.toNat_natCast, find?, hopening, Option.map_map]
  rfl

/-- An interpolation inside a text in quotes, with a quote, a comma and parentheses of its own. -/
theorem findAt_interpolated_text :
    let text := "foo(\"a b\", bar(1), c".toList
    let inner := "~g(\")(,\", <x>)".toList
    20 ≤ text.length ∧ 6 ≤ 20 ∧ text[6 - 1]? ≠ some '\\' ∧ Balanced inner ∧
      text.take 6 ++ interpolation inner ++ text.drop 6 =
        "foo(\"a<~g(\")(,\", <x>)> b\", bar(1), c".toList ∧
      findAt (text.take 6 ++ interpolation inner ++ text.drop 6) (20 + (interpolation inner).length : Nat)
          (Word.ofLine (text.take 6 ++ interpolation inner ++ text.drop 6)) =
        .ok (some (some ⟨"foo", 0, 0⟩, 2)) := by
  intro text inner
  have hbackslash : text[6 - 1]? ≠ some '\\' := by decide
  have hinner : Balanced inner := by decide +kernel
  obtain ⟨-, -, hcall⟩ :=
    findAt_interpolation text (show 20 ≤ text.length by decide) (show 6 ≤ 20 by decide) (.inr hbackslash)
      hinner
  exact ⟨by decide, by decide, hbackslash, hinner, by decide, (hcall _).trans (by decide +kernel)⟩

end ScriptIndex.CallSite
