import ScriptIndex.Proofs.Words

namespace ScriptIndex

namespace Word

variable {line : Line} {w : Word}

/-- A character that does not separate starts a word wherever no word is open. -/
private theorem lengthAt_pos {c : Char} (h : isSeparator c = false) (rest : List Char) :
    0 < lengthAt (c :: rest) := by
  have hplain : 0 < ((c :: rest).takeWhile fun c => !isSeparator c).length := by simp [h]
  unfold lengthAt
  dsimp only
  split
  · rename_i hdot
    obtain ⟨rfl, -⟩ := List.cons.inj hdot
    exact absurd h (by decide)
  · split
    · split
      · exact hplain
      · omega
    · exact hplain

/-- A scan goes past no character that does not separate. The induction is on the text; `skip` counts the
characters that are left of the word before, and `d` is none of them. -/
theorem exists_mem_scan {c : Char} (hc : isSeparator c = false) (column index skip : Nat)
    {text : List Char} {d : Nat} (hd : text[d]? = some c) (hskip : skip ≤ d) :
    ∃ w ∈ scan lengthAt column index skip text, w.start ≤ column + d ∧ column + d ≤ w.last := by
  induction text generalizing column index skip d with
  | nil => simp at hd
  | cons first rest ih =>
    cases skip with
    | succ skip =>
      obtain ⟨d, rfl⟩ := Nat.exists_eq_add_of_le' (Nat.lt_of_lt_of_le (Nat.zero_lt_succ skip) hskip)
      obtain ⟨w, hw, hs, hl⟩ := ih (column + 1) index skip hd (by omega)
      exact ⟨w, hw, by omega, by omega⟩
    | zero =>
      cases hn : lengthAt (first :: rest) with
      | zero =>
        rw [scan_of_eq_zero hn]
        cases d with
        | zero =>
          obtain rfl : first = c := by simpa using hd
          exact absurd hn (Nat.ne_of_gt (lengthAt_pos hc rest))
        | succ d =>
          obtain ⟨w, hw, hs, hl⟩ := ih (column + 1) index 0 hd (Nat.zero_le d)
          exact ⟨w, hw, by omega, by omega⟩
      | succ n =>
        rw [scan_of_eq_succ hn]
        by_cases hin : d ≤ n
        · have hlt : d < (first :: rest).length := (List.getElem?_eq_some_iff.1 hd).1
          refine ⟨_, List.mem_cons_self, Nat.le_add_right column d, ?_⟩
          simp only [last, String.length_ofList, List.length_take]
          omega
        · obtain ⟨d, rfl⟩ := Nat.exists_eq_add_of_le' (show 1 ≤ d by omega)
          obtain ⟨w, hw, hs, hl⟩ := ih (column + 1) (index + 1) n hd (by omega)
          exact ⟨w, List.mem_cons_of_mem _ hw, by omega, by omega⟩

def IsName (text : List Char) : Prop :=
  text ≠ [] ∧ ∀ c ∈ text, Text.isWordChar c = true

private theorem IsName.not_isSeparator {text : List Char} (h : IsName text) {d : Nat} {c : Char}
    (hd : text[d]? = some c) : isSeparator c = false :=
  isSeparator_of_isWordChar (h.2 c (List.mem_of_getElem? hd))

/-- Where a word may hold a character that separates: the dot in front of a name, and the colon between
two names. -/
def SeparatorAt (text : List Char) (d : Nat) (c : Char) : Prop :=
  (c = '.' ∧ d = 0 ∧ ∃ name, IsName name ∧ text = '.' :: name) ∨
    (c = ':' ∧ ∃ a b, IsName a ∧ IsName b ∧ text = a ++ ':' :: b ∧ d = a.length)

private theorem Form.separatorAt {text : List Char} (h : Form text) {d : Nat} {c : Char}
    (hd : text[d]? = some c) (hc : isSeparator c = true) : SeparatorAt text d c := by
  cases h with
  | dotted name hne hn =>
    have hname : IsName name := ⟨hne, hn⟩
    cases d with
    | zero => exact .inl ⟨(Option.some.inj hd).symm, rfl, name, hname, rfl⟩
    | succ d => simp [hname.not_isSeparator hd] at hc
  | qualified a b ha hb hna hnb =>
    have hfirst : IsName a := ⟨ha, hna⟩
    have hsecond : IsName b := ⟨hb, hnb⟩
    rcases Nat.lt_trichotomy d a.length with hlt | rfl | hgt
    · rw [List.getElem?_append_left hlt] at hd
      simp [hfirst.not_isSeparator hd] at hc
    · have hcolon : c = ':' := by simpa using hd.symm
      exact .inr ⟨hcolon, a, b, hfirst, hsecond, rfl, rfl⟩
    · obtain ⟨e, rfl⟩ := Nat.exists_eq_add_of_lt hgt
      rw [List.getElem?_append_right (by omega), show a.length + e + 1 - a.length = e + 1 by omega] at hd
      simp [hsecond.not_isSeparator hd] at hc
  | plain run _ hr => simp [hr c (List.mem_of_getElem? hd)] at hc

/-- What the words of a line are, and where they are found. -/
structure Cover (text : Line) (words : List Word) : Prop where
  /-- They are numbered from zero on. -/
  numbered : words.map index = List.range words.length
  /-- Each starts behind the last column of those before it. -/
  ordered : words.Pairwise fun a b => a.start < b.start ∧ a.last < b.start
  /-- Each is the text on its columns, and has at least one. -/
  sliced : ∀ w ∈ words, w.value ≠ "" ∧ w.start ≤ w.last ∧ w.last < text.length ∧
    w.value.toList = (text.drop w.start).take (w.last + 1 - w.start)
  /-- A character that does not separate stands in exactly one of them. -/
  unique : ∀ column c, text[column]? = some c → isSeparator c = false →
    ∃! w, w ∈ words ∧ w.start ≤ column ∧ column ≤ w.last
  /-- One that separates stands in them only as the dot or the colon of their form. -/
  separators : ∀ w ∈ words, ∀ d c, text[w.start + d]? = some c → w.start + d ≤ w.last →
    isSeparator c = true → SeparatorAt w.value.toList d c
  /-- A word is found on the columns that it covers and on no others. -/
  found : ∀ (column : Int) (w : Word), at? words column = some w ↔
    w ∈ words ∧ w.start ≤ column ∧ column ≤ w.last

private theorem ofLine_ordered (line : Line) :
    (ofLine line).Pairwise fun a b => a.start < b.start ∧ a.last < b.start := by
  refine (scan_pairwise lengthAt 0 0 0 line).imp_of_mem fun {a b} ha _ hlast => ⟨?_, hlast⟩
  have hpos := length_pos_of_mem ha
  unfold last at hlast
  omega

private theorem ofLine_numbered (line : Line) :
    (ofLine line).map index = List.range (ofLine line).length := by
  refine List.ext_getElem (by simp) fun i hi hi' => ?_
  rw [List.length_map] at hi
  have hindex : ((ofLine line)[i]).index = 0 + i := scan_index (List.getElem?_eq_getElem hi)
  rw [List.getElem_map, List.getElem_range, hindex, Nat.zero_add]

private theorem text_of_mem (h : w ∈ ofLine line) :
    w.value ≠ "" ∧ w.start ≤ w.last ∧ w.last < line.length ∧
      w.value.toList = (line.drop w.start).take (w.last + 1 - w.start) := by
  have hpos := length_pos_of_mem h
  obtain ⟨before, after, rfl, hstart⟩ := split_of_mem h
  have hlast : w.last = before.length + w.value.length - 1 := by rw [last, hstart]
  refine ⟨fun he => ?_, by omega, ?_, ?_⟩
  · simp [he] at hpos
  · simp only [List.length_append, String.length_toList]
    omega
  · rw [← hstart, show w.last + 1 - before.length = w.value.toList.length by
      rw [String.length_toList]
      omega, List.append_assoc, List.drop_left, List.take_left]

/-- Two words that cover one column are the same. -/
theorem eq_of_covers {v : Word} {column : Nat} (hv : v ∈ ofLine line) (hw : w ∈ ofLine line)
    (hvs : v.start ≤ column) (hvl : column ≤ v.last) (hws : w.start ≤ column)
    (hwl : column ≤ w.last) : v = w := by
  have hfound := at?_ofLine hv hvs hvl
  rw [at?_ofLine hw hws hwl] at hfound
  exact (Option.some.inj hfound).symm

private theorem at?_eq_some_iff (line : Line) (column : Int) (w : Word) :
    at? (ofLine line) column = some w ↔ w ∈ ofLine line ∧ w.start ≤ column ∧ column ≤ w.last := by
  constructor
  · intro h
    rw [at?_eq_find?] at h
    have hcovers := List.find?_some h
    simp only [covers, Bool.and_eq_true, decide_eq_true_eq] at hcovers
    exact ⟨List.mem_of_find?_eq_some h, hcovers⟩
  · rintro ⟨hw, hs, hl⟩
    obtain ⟨n, rfl⟩ := Int.eq_ofNat_of_zero_le (Int.le_trans (Int.natCast_nonneg w.start) hs)
    exact at?_ofLine hw (Int.ofNat_le.1 hs) (Int.ofNat_le.1 hl)

/-- The words of a line are numbered, stand apart and in order, carry the text on their columns, cover
every character that does not separate exactly once and no other but for the dot and the colon of their
form, and are found on the columns that they cover. -/
theorem cover_ofLine (line : Line) : Cover line (ofLine line) where
  numbered := ofLine_numbered line
  ordered := ofLine_ordered line
  sliced _ hw := text_of_mem hw
  unique column c hcolumn hc := by
    obtain ⟨w, hw, hs, hl⟩ := exists_mem_scan hc 0 0 0 hcolumn (Nat.zero_le column)
    rw [Nat.zero_add] at hs hl
    refine ⟨w, ⟨hw, hs, hl⟩, fun v ⟨hv, hvs, hvl⟩ => eq_of_covers hv hw hvs hvl hs hl⟩
  separators w hw d c hcolumn hlast hc := by
    obtain ⟨-, -, -, htext⟩ := text_of_mem hw
    refine (form_of_mem hw).separatorAt ?_ hc
    rw [htext, List.getElem?_take_of_lt (by omega), List.getElem?_drop, hcolumn]
  found := at?_eq_some_iff line

example : (ofLine "§a:b:c..d e.".toList).map (fun w => (w.value, w.start)) =
    [("§a", 0), ("b:c", 3), (".d", 7), ("e", 10)] := by decide +kernel

end Word

end ScriptIndex
