import Mathlib.Data.List.Induction
import ScriptIndex.CallSite
import ScriptIndex.Proofs.Words

/-! The call around a cursor, read from the left. A line is read up to the cursor with a stack of the
parentheses that are open, and the innermost of them is the call; the way back from the cursor, which
keeps no stack, finds the same one. -/
namespace ScriptIndex.CallSite

/-- A parenthesis that is open: its column, and the commas of its own group so far. -/
structure Frame where
  column : Nat
  commas : Nat
  deriving DecidableEq, Repr

/-- How far a line is read from the left: its length so far and its last character, whether a text in
quotes is open, and the open parentheses, the innermost first. -/
structure Reading where
  column : Nat := 0
  previous : Option Char := none
  inText : Bool
  frames : List Frame := []
  deriving DecidableEq, Repr

namespace Reading

def isQuote (previous : Option Char) (c : Char) : Bool :=
  c = '"' ∧ previous ≠ some '\\'

def framesAfter (column : Nat) (frames : List Frame) (c : Char) : List Frame :=
  if c = '(' then ⟨column, 0⟩ :: frames
  else if c = ')' then frames.tail
  else if c = ',' then frames.modifyHead fun f => { f with commas := f.commas + 1 }
  else frames

def next (r : Reading) (c : Char) : Reading where
  column := r.column + 1
  previous := some c
  inText := isQuote r.previous c ^^ r.inText
  frames := if isQuote r.previous c || r.inText then r.frames else framesAfter r.column r.frames c

def of (inText : Bool) (front : List Char) : Reading :=
  front.foldl next { inText := inText }

def quotes (previous : Option Char) : List Char → Nat
  | [] => 0
  | c :: rest => (if isQuote previous c then 1 else 0) + quotes (some c) rest

variable (inText : Bool) (front : List Char)

private theorem of_append_singleton (c : Char) : of inText (front ++ [c]) = (of inText front).next c := by
  rw [of, List.foldl_append]
  rfl

private theorem of_column : (of inText front).column = front.length := by
  induction front using List.reverseRecOn with
  | nil => rfl
  | append_singleton front c ih =>
    rw [of_append_singleton, List.length_append, ← ih]
    rfl

private theorem of_previous : (of inText front).previous = front.getLast? := by
  rcases List.eq_nil_or_concat front with rfl | ⟨front, c, rfl⟩
  · rfl
  · rw [List.concat_eq_append, of_append_singleton, List.getLast?_append]
    rfl

private theorem quotes_append (previous : Option Char) (back : List Char) :
    quotes previous (front ++ back) =
      quotes previous front + quotes (front.getLast?.or previous) back := by
  induction front generalizing previous with
  | nil => simp [quotes]
  | cons c front ih =>
    rw [List.cons_append, quotes, quotes, ih, Nat.add_assoc, List.getLast?_cons]
    cases front.getLast? <;> rfl

private theorem odd_add (m n : Nat) :
    decide ((m + n) % 2 = 1) = (decide (m % 2 = 1) ^^ decide (n % 2 = 1)) := by
  rcases Nat.mod_two_eq_zero_or_one m with hm | hm <;>
    rcases Nat.mod_two_eq_zero_or_one n with hn | hn <;> simp [Nat.add_mod, hm, hn]

private theorem odd_quotes_cons (previous : Option Char) (c : Char) (back : List Char) :
    decide (quotes previous (c :: back) % 2 = 1) =
      (isQuote previous c ^^ decide (quotes (some c) back % 2 = 1)) := by
  rw [quotes, odd_add]
  cases isQuote previous c <;> rfl

/-- A text in quotes is open at the end if it was open at the start and the quotes come in pairs, or was
not and they do not. -/
private theorem of_inText : (of inText front).inText = (inText ^^ decide (quotes none front % 2 = 1)) := by
  induction front using List.reverseRecOn with
  | nil => simp [of, quotes]
  | append_singleton front c ih =>
    have hnext : (of inText (front ++ [c])).inText =
        (isQuote front.getLast? c ^^ (of inText front).inText) := by
      rw [of_append_singleton, ← of_previous inText]
      rfl
    rw [hnext, quotes_append, odd_add, Option.or_none, odd_quotes_cons, ih, Bool.xor_comm,
      Bool.xor_assoc]
    simp [quotes]

end Reading

variable {text : Line}

/-- Without interpolations, a cursor stands inside a text in quotes if an odd number of quotes
follows. -/
private theorem quotesOdd_eq {previous : Char} {back : List Char} (hback : ∀ c ∈ back, c ≠ '<' ∧ c ≠ '>')
    (odd : Bool) :
    quotesOdd (some previous) 0 odd back =
      (odd ^^ decide (Reading.quotes (some previous) back % 2 = 1)) := by
  induction back generalizing previous odd with
  | nil => simp [quotesOdd, Reading.quotes]
  | cons c back ih =>
    obtain ⟨⟨hopen, hclose⟩, hback⟩ := List.forall_mem_cons.1 hback
    have hodd : (if c = '"' ∧ (some previous).any (· ≠ '\\') then !odd else odd) =
        (odd ^^ Reading.isQuote (some previous) c) := by
      cases odd <;> simp [Reading.isQuote]
    rw [quotesOdd, hodd, if_neg hclose, if_neg hopen, ih hback, Reading.odd_quotes_cons,
      Bool.xor_assoc]

/-- One step back, where there are no interpolations. -/
private theorem back_cons {c : Char} (hc : c ≠ '<' ∧ c ≠ '>') (rest : List Char) (inText : Bool)
    (groups commas : Nat) :
    back { inText := inText, groups := groups, commas := commas } (c :: rest) =
      if Reading.isQuote rest.head? c then
        back { inText := !inText, groups := groups, commas := commas } rest
      else if inText then back { inText := true, groups := groups, commas := commas } rest
      else if c = ')' then back { groups := groups + 1, commas := commas } rest
      else if 0 < groups then
        back { groups := if c = '(' then groups - 1 else groups, commas := commas } rest
      else if c = ',' then back { groups := groups, commas := commas + 1 } rest
      else if c = '(' then some (rest.length, commas)
      else back { groups := groups, commas := commas } rest := by
  obtain ⟨hopen, hclose⟩ := hc
  have hquote : Reading.isQuote rest.head? c = decide (c = '"' ∧ !(rest.head? == some '\\')) := by
    simp [Reading.isQuote]
  rw [back]
  simp only [if_neg hclose, if_neg hopen, Nat.lt_irrefl, if_false, hquote, decide_eq_true_eq]
  by_cases hq : c = '"' ∧ (!(rest.head? == some '\\')) = true
  · cases inText <;> simp [hq]
  · cases inText with
    | true => simp only [if_neg hq, if_true]
    | false =>
      simp only [if_neg hq, Bool.false_eq_true, if_false]
      split
      · rfl
      · split
        · split <;> rfl
        · rfl

/-- The way back over the front of a line, in the state in which a reading of it ends: as many of the
open parentheses are passed over as there are closed groups on the way, and the next one is found. -/
theorem back_eq_of {front : List Char} (hfront : ∀ c ∈ front, c ≠ '<' ∧ c ≠ '>') (inText : Bool)
    (groups commas : Nat) :
    back { inText := (Reading.of inText front).inText, groups := groups, commas := commas }
        front.reverse =
      (((Reading.of inText front).frames.drop groups).head?).map fun f =>
        (f.column, f.commas + commas) := by
  -- The last character of the front is the first on the way back.
  induction front using List.reverseRecOn generalizing groups commas with
  | nil => simp [back, Reading.of]
  | append_singleton front c ih =>
    rw [List.forall_mem_append] at hfront
    obtain ⟨hfront, hc⟩ := hfront
    have ih := ih hfront
    have hhead : front.reverse.head? = (Reading.of inText front).previous := by
      rw [Reading.of_previous, List.head?_reverse]
    have hlength : front.reverse.length = (Reading.of inText front).column := by
      rw [Reading.of_column, List.length_reverse]
    rw [List.reverse_append, Reading.of_append_singleton, List.reverse_singleton,
      List.singleton_append, back_cons (hc c (List.mem_singleton_self c)), hhead, hlength]
    generalize Reading.of inText front = r at ih ⊢
    obtain ⟨column, previous, open?, frames⟩ := r
    simp only [Reading.next] at ih ⊢
    cases hq : Reading.isQuote previous c with
    | true => simpa using ih groups commas
    | false =>
      cases open? with
      | true => simpa using ih groups commas
      | false =>
        simp only [Bool.false_eq_true, if_false, Bool.xor_false, Bool.or_false,
          Reading.framesAfter] at ih ⊢
        by_cases hclose : c = ')'
        · -- A group that is closed here has to be passed over.
          subst hclose
          simp [ih, List.drop_tail]
        rw [if_neg hclose, if_neg hclose]
        by_cases hopen : c = '('
        · subst hopen
          cases groups with
          | zero => simp
          | succ groups => simp [ih]
        rw [if_neg hopen, if_neg hopen, if_neg hopen]
        by_cases hcomma : c = ','
        · subst hcomma
          cases groups with
          | zero => cases frames <;> simp [ih, Nat.add_assoc, Nat.add_comm 1]
          | succ groups => cases frames <;> simp [ih]
        · simp only [if_neg hcomma, ite_self, ih]

/-- The innermost parenthesis that is open at a cursor, on a line that starts inside a text in quotes if
its quotes do not come in pairs. -/
def innermost? (text : Line) (cursor : Nat) : Option Frame :=
  (Reading.of (Reading.quotes none text % 2 = 1) (text.take cursor)).frames.head?

/-- Without interpolations, the open parenthesis that is found on the way back from a cursor is the
innermost one of a reading from the left. -/
theorem opening?_eq_innermost {text : Line} (htext : ∀ c ∈ text, c ≠ '<' ∧ c ≠ '>') (cursor : Nat) :
    opening? text cursor = (innermost? text cursor).map fun f => (f.column, f.commas) := by
  have hfront : ∀ c ∈ text.take cursor, c ≠ '<' ∧ c ≠ '>' :=
    fun c hc => htext c (List.mem_of_mem_take hc)
  have hback : ∀ c ∈ text.drop cursor, c ≠ '<' ∧ c ≠ '>' :=
    fun c hc => htext c (List.mem_of_mem_drop hc)
  rw [opening?, innermost?]
  by_cases hcursor : cursor = 0
  · subst hcursor
    simp [back, Reading.of]
  -- The quotes of the line are those before the cursor and those behind it.
  have hlast : (text.take cursor).getLast? = text[cursor - 1]?.or text.getLast? := by
    rw [List.getLast?_take, if_neg hcursor]
  have hquotes := Reading.quotes_append (text.take cursor) none (text.drop cursor)
  rw [List.take_append_drop, Option.or_none, hlast] at hquotes
  have hinText : quotesOdd (if cursor = 0 then none else text[cursor - 1]?) 0 false
      (text.drop cursor) =
        (Reading.of (Reading.quotes none text % 2 = 1) (text.take cursor)).inText := by
    rw [if_neg hcursor, Reading.of_inText, hquotes, Reading.odd_add, Bool.xor_comm, ← Bool.xor_assoc,
      Bool.xor_self, Bool.false_xor]
    cases hprevious : text[cursor - 1]? with
    | none =>
      have hlength := List.getElem?_eq_none_iff.1 hprevious
      rw [List.drop_eq_nil_of_le (by omega)]
      rfl
    | some previous => rw [quotesOdd_eq hback, Bool.false_xor, Option.some_or]
  rw [hinText]
  simpa using back_eq_of hfront (Reading.quotes none text % 2 = 1) 0 0

/-- Without interpolations, the call around a cursor is that of the innermost parenthesis which is open
when the line is read from the left, and the commas of its own group so far are counted. -/
theorem findAt_eq_innermost (text : Line) (cursor : Nat) (htext : ∀ c ∈ text, c ≠ '<' ∧ c ≠ '>') :
    findAt text cursor (Word.ofLine text) =
      .ok ((innermost? text cursor).map fun f =>
        ((Word.ofLine text).find? (·.covers ((f.column : Int) - 1)), f.commas)) := by
  rw [findAt, if_pos (Int.natCast_nonneg cursor), Int.toNat_natCast, find?,
    opening?_eq_innermost htext, Option.map_map]
  simp only [Function.comp_def, Word.at?_eq_find?]

/-- Behind a parenthesis that closes nothing, a text with an escaped quote and a closed group, the third
argument of the call is reached. -/
theorem findAt_third_argument :
    let text := ") foo(\"a,(\\\"b\", bar(1), c".toList
    (∀ c ∈ text, c ≠ '<' ∧ c ≠ '>') ∧
      findAt text (25 : Nat) (Word.ofLine text) = .ok (some (some ⟨"foo", 2, 0⟩, 2)) := by
  intro text
  have hall : text.all (fun c => c != '<' && c != '>') = true := by decide +kernel
  have htext : ∀ c ∈ text, c ≠ '<' ∧ c ≠ '>' := by
    simpa only [List.all_eq_true, Bool.and_eq_true, bne_iff_ne] using hall
  have hcall := findAt_eq_innermost text 25 htext
  refine ⟨htext, hcall.trans ?_⟩
  decide +kernel

end ScriptIndex.CallSite
