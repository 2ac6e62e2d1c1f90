import Mathlib.Data.List.Basic
import ScriptIndex.Text.Letters

/-! Capitals of capitals. Where they are ASCII, the capitals of a text in capitals are the text itself: the
letters beyond ASCII that have ASCII capitals are the capital of no letter. -/
namespace ScriptIndex.Text

def narrowed : List Nat :=
  [0xdf, 0x131, 0x17f, 0xfb00, 0xfb01, 0xfb02, 0xfb03, 0xfb04, 0xfb05, 0xfb06]

def lowered : List Nat :=
  List.range' 97 26 ++ narrowed

inductive Capital (c : Char) : List Char → Prop where
  | ascii : c.toNat < 128 → Capital c [c.toUpper]
  | text (e : Nat × List Nat) : e ∈ capitalTexts → e.1 = c.toNat → Capital c (e.2.map Char.ofNat)
  | run (r : CapitalRun) : r ∈ capitalRuns → r.first ≤ c.toNat → c.toNat ≤ r.last →
    Capital c [Char.ofNat (r.capital + (c.toNat - r.first))]
  | itself : 128 ≤ c.toNat → Capital c [c]

private theorem capital_capital (c : Char) : Capital c (capital c) := by
  unfold capital
  split
  · rename_i hascii
    exact .ascii hascii
  · rename_i hwide
    split
    · rename_i e he
      have hkey := List.find?_some he
      exact .text e (List.mem_of_find?_eq_some he) (beq_iff_eq.1 hkey)
    · split
      · rename_i r hr
        have hrun := List.find?_some hr
        simp only [Bool.and_eq_true, decide_eq_true_eq] at hrun
        exact .run r (List.mem_of_find?_eq_some hr) hrun.1.1 hrun.1.2
      · exact .itself (Nat.le_of_not_lt hwide)

/-- What holds of the first characters by their number holds of every ASCII character. -/
private theorem forall_ascii {P : Char → Prop} (h : ∀ n < 128, P (Char.ofNat n)) {c : Char}
    (hc : c.toNat < 128) : P c := by
  have hP := h c.toNat hc
  rwa [Char.ofNat_toNat] at hP

/-- The capitals of a run are characters, and no letters that are in no capital form. -/
private theorem toNat_run {r : CapitalRun} (hr : r ∈ capitalRuns) {i : Nat} (hi : i ≤ r.last - r.first) :
    (Char.ofNat (r.capital + i)).toNat = r.capital + i ∧ r.capital + i ∉ lowered := by
  have hvalid : ∀ r ∈ capitalRuns, r.capital + (r.last - r.first) < 0xd800 ∨
      0xdfff < r.capital ∧ r.capital + (r.last - r.first) < 0x110000 := by decide +kernel
  have hapart : ∀ r ∈ capitalRuns, ∀ n ∈ lowered, n < r.capital ∨
      r.capital + (r.last - r.first) < n := by decide +kernel
  constructor
  · have hv : (r.capital + i).isValidChar := by
      rcases hvalid r hr with h | h
      · exact .inl (by omega)
      · exact .inr (by omega)
    rw [Char.ofNat, dif_pos hv]
    rfl
  · intro hn
    rcases hapart r hr _ hn with h | h <;> omega

/-- No capital form has a letter that is in none. -/
private theorem not_mem_lowered {c d : Char} (hd : d ∈ capital c) : d.toNat ∉ lowered := by
  have hc := capital_capital c
  generalize hform : capital c = form at hc hd
  cases hc with
  | ascii hascii =>
    obtain rfl := List.mem_singleton.1 hd
    exact forall_ascii (P := fun c => c.toUpper.toNat ∉ lowered) (by decide +kernel) hascii
  | text e he hkey =>
    have hall : ∀ e ∈ capitalTexts, ∀ n ∈ e.2, (Char.ofNat n).toNat ∉ lowered := by decide +kernel
    obtain ⟨n, hn, rfl⟩ := List.mem_map.1 hd
    exact hall e he n hn
  | run r hr hfirst hlast =>
    obtain rfl := List.mem_singleton.1 hd
    obtain ⟨hvalue, hlowered⟩ := toNat_run hr (i := c.toNat - r.first) (by omega)
    rwa [hvalue]
  | itself hwide =>
    have hmoved : ∀ n ∈ lowered, capital (Char.ofNat n) ≠ [Char.ofNat n] := by decide +kernel
    obtain rfl := List.mem_singleton.1 hd
    intro hlowered
    apply hmoved _ hlowered
    rwa [Char.ofNat_toNat]

/-- Only letters of ASCII, and a few others, have capitals in ASCII. -/
private theorem ascii_or_narrowed {c : Char} (h : ∀ d ∈ capital c, d.toNat < 128) :
    c.toNat < 128 ∨ c.toNat ∈ narrowed := by
  have hc := capital_capital c
  generalize capital c = form at hc h
  cases hc with
  | ascii hascii => exact .inl hascii
  | text e he hkey =>
    have hall : ∀ e ∈ capitalTexts, (∀ n ∈ e.2, (Char.ofNat n).toNat < 128) → e.1 ∈ narrowed := by
      decide +kernel
    exact .inr (hkey ▸ hall e he (List.forall_mem_map.1 h))
  | run r hr hfirst hlast =>
    have hall : ∀ r ∈ capitalRuns, r.capital < 128 → r.first = r.last ∧ r.first ∈ narrowed := by
      decide +kernel
    have hlow := h _ List.mem_cons_self
    rw [(toNat_run hr (i := c.toNat - r.first) (by omega)).1] at hlow
    obtain ⟨hsingle, hfirst'⟩ := hall r hr (by omega)
    have hc : c.toNat = r.first := by omega
    exact .inr (hc ▸ hfirst')
  | itself hwide => exact .inl (h c List.mem_cons_self)

/-- A letter of a capital form with capitals in ASCII is its own capital. -/
private theorem capital_of_mem_capital {c d : Char} (hd : d ∈ capital c)
    (h : ∀ e ∈ capital d, e.toNat < 128) :
    capital d = [d] := by
  have hlowered := not_mem_lowered hd
  rcases ascii_or_narrowed h with hascii | hnarrowed
  · have hself : ∀ n < 128, (Char.ofNat n).toNat ∉ lowered →
        capital (Char.ofNat n) = [Char.ofNat n] := by decide +kernel
    exact forall_ascii (P := fun d => d.toNat ∉ lowered → capital d = [d]) hself hascii hlowered
  · exact absurd (List.mem_append_right _ hnarrowed) hlowered

/-- Where the capitals of a text in capitals are ASCII, they are the text. -/
theorem upper_upper_of_ascii {s : String} (h : ∀ c ∈ (upper (upper s)).toList, c.toNat < 128) :
    upper (upper s) = upper s := by
  have hself : ∀ d ∈ (upper s).toList, capital d = [d] := by
    intro d hd
    have hascii (e : Char) (he : e ∈ capital d) : e.toNat < 128 := by
      apply h
      rw [upper, String.toList_ofList]
      exact List.mem_flatMap_of_mem hd he
    rw [upper, String.toList_ofList] at hd
    obtain ⟨c, -, hd⟩ := List.mem_flatMap.1 hd
    exact capital_of_mem_capital hd hascii
  have hlist : (upper s).toList.flatMap capital = (upper s).toList := by
    calc (upper s).toList.flatMap capital = (upper s).toList.flatMap fun d => [d] :=
          List.flatMap_congr hself
      _ = (upper s).toList := List.flatMap_singleton' _
  rw [upper, hlist, String.ofList_toList]

end ScriptIndex.Text
