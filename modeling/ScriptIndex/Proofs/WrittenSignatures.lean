import Mathlib.Data.List.DropRight
import ScriptIndex.Proofs.HeaderSignatures
import ScriptIndex.Proofs.TypeKeywords

/-! Signatures that are written. A header with its parameters and results in parentheses is read back as
these, for lists of any length: each piece between commas is one parameter or one result again, and an empty
list leaves nothing. -/
namespace ScriptIndex

namespace Text

private theorem strip_cons_of_blank {c : Char} (h : isBlank c = true) (text : List Char) :
    strip (c :: text) = strip text := by
  rw [strip, List.dropWhile_cons_of_pos h, strip]

/-- A text without blanks at its ends is stripped. -/
private theorem strip_eq_self {text : List Char} (hfirst : ∀ c ∈ text.head?, isBlank c = false)
    (hlast : ∀ c ∈ text.getLast?, isBlank c = false) : strip text = text := by
  have hfront : text.dropWhile isBlank = text := by
    cases text with
    | nil => rfl
    | cons c rest => exact List.dropWhile_cons_of_neg (by simp [hfirst c rfl])
  unfold strip
  rw [hfront]
  exact List.rdropWhile_eq_self_iff.2 fun hne => by
    simp [hlast _ (List.getLast?_eq_some_getLast hne)]

/-- The first piece, and the others with a separator before each. -/
private theorem intercalate_cons (sep piece : List Char) (rest : List (List Char)) :
    sep.intercalate (piece :: rest) = piece ++ rest.flatMap (sep ++ ·) := by
  induction rest generalizing piece with
  | nil => simp
  | cons next rest ih => simp [List.intercalate_cons_cons, ih]

/-- Pieces that are written with a blank behind each comma are read with the blank before them. -/
private theorem splitOn_spaced {piece : List Char} {rest : List (List Char)}
    (h : ∀ p ∈ piece :: rest, ',' ∉ p) :
    List.splitOn ',' ([',', ' '].intercalate (piece :: rest)) = piece :: rest.map (' ' :: ·) := by
  obtain ⟨hpiece, hrest⟩ := List.forall_mem_cons.1 h
  have hspaced : [',', ' '].intercalate (piece :: rest) =
      [','].intercalate (piece :: rest.map (' ' :: ·)) := by
    rw [intercalate_cons, intercalate_cons, List.flatMap_map]
    rfl
  rw [hspaced]
  refine List.splitOn_intercalate _ (List.forall_mem_cons.2 ⟨hpiece, ?_⟩) (List.cons_ne_nil _ _)
  exact List.forall_mem_map.2 fun p hp => by simpa using hrest p hp

end Text

namespace Signature
open LineShape

/-- Whether a text can be written as a type or a name of a parameter: it is not empty, and has no blank, comma
or parenthesis in it. -/
structure IsWord (text : String) : Prop where
  nonempty : text ≠ ""
  plain : ∀ c ∈ text.toList, Text.isBlank c = false ∧ c ≠ ',' ∧ c ≠ '(' ∧ c ≠ ')'

instance (text : String) : Decidable (IsWord text) :=
  have := List.decidableBAll (fun c => Text.isBlank c = false ∧ c ≠ ',' ∧ c ≠ '(' ∧ c ≠ ')') text.toList
  decidable_of_iff (text ≠ "" ∧ ∀ c ∈ text.toList, Text.isBlank c = false ∧ c ≠ ',' ∧ c ≠ '(' ∧ c ≠ ')')
    ⟨fun h => ⟨h.1, h.2⟩, fun h => ⟨h.nonempty, h.plain⟩⟩

/-- Whether a parameter can be written. -/
structure IsWritable (p : Parameter) : Prop where
  type : IsWord p.type
  name : IsWord p.name

instance (p : Parameter) : Decidable (IsWritable p) :=
  decidable_of_iff (IsWord p.type ∧ IsWord p.name) ⟨fun h => ⟨h.1, h.2⟩, fun h => ⟨h.type, h.name⟩⟩

/-- Whether a text can be written as the keyword of a result: it is not empty, has no comma or parenthesis in
it, and no blanks around it. -/
structure IsKeyword (text : String) : Prop where
  nonempty : text ≠ ""
  plain : ∀ c ∈ text.toList, c ≠ ',' ∧ c ≠ '(' ∧ c ≠ ')'
  stripped : Text.strip text.toList = text.toList

instance (text : String) : Decidable (IsKeyword text) :=
  have := List.decidableBAll (fun c => c ≠ ',' ∧ c ≠ '(' ∧ c ≠ ')') text.toList
  decidable_of_iff (text ≠ "" ∧ (∀ c ∈ text.toList, c ≠ ',' ∧ c ≠ '(' ∧ c ≠ ')') ∧
      Text.strip text.toList = text.toList)
    ⟨fun h => ⟨h.1, h.2.1, h.2.2⟩, fun h => ⟨h.nonempty, h.plain, h.stripped⟩⟩

def written (header : String) (params : List Parameter) (returns : List String) : String :=
  header ++ "(" ++ ", ".intercalate (params.map Parameter.text) ++ ")" ++
    if returns = [] then "" else "(" ++ ",".intercalate returns ++ ")"

def results (returns : List String) : List Char :=
  if returns = [] then [] else group ([','].intercalate (returns.map String.toList))

private theorem toList_written (header : String) (params : List Parameter) (returns : List String) :
    (written header params returns).toList = header.toList ++
      (group ([',', ' '].intercalate (params.map fun p => p.text.toList)) ++ results returns) := by
  unfold written results
  split <;> simp [String.toList_intercalate, group, Function.comp_def]

def listed (sep : List Char) (list : List (List Char)) : Option (List Char) :=
  if list = [] then none else some (sep.intercalate list)

private theorem getD_listed (sep : List Char) (list : List (List Char)) :
    (listed sep list).getD [] = sep.intercalate list := by
  cases list <;> rfl

private theorem parenthesized_list {sep : List Char} {list : List (List Char)} (hsep : Unparenthesized sep)
    (h : ∀ piece ∈ list, piece ≠ [] ∧ Unparenthesized piece) (rest : List Char) :
    parenthesized (group (sep.intercalate list) ++ rest) = (listed sep list, rest) := by
  cases list with
  | nil => exact parenthesized_group (List.forall_mem_nil _) rest
  | cons first others =>
    obtain ⟨⟨hne, hfirst⟩, hothers⟩ := List.forall_mem_cons.1 h
    rw [listed, Text.intercalate_cons]
    have hplain : Unparenthesized (first ++ others.flatMap (sep ++ ·)) := by
      intro c hc
      rcases List.mem_append.1 hc with hc | hc
      · exact hfirst c hc
      · obtain ⟨piece, hpiece, hc⟩ := List.mem_flatMap.1 hc
        exact (List.mem_append.1 hc).elim (hsep c) ((hothers piece hpiece).2 c)
    rw [parenthesized_group hplain, if_neg (by simp [hne]), if_neg (List.cons_ne_nil _ _)]

private theorem toList_text (p : Parameter) : p.text.toList = p.type.toList ++ ' ' :: p.name.toList := by
  simp [Parameter.text]

/-- The written form of a parameter has no comma or parenthesis in it. -/
private theorem IsWritable.plain {p : Parameter} (h : IsWritable p) :
    ∀ c ∈ p.text.toList, c ≠ ',' ∧ c ≠ '(' ∧ c ≠ ')' := by
  intro c hc
  rw [toList_text, List.mem_append, List.mem_cons] at hc
  rcases hc with hc | rfl | hc
  · exact (h.type.plain c hc).2
  · decide
  · exact (h.name.plain c hc).2

/-- There are no blanks around the written form of a parameter. -/
private theorem IsWritable.strip_text {p : Parameter} (h : IsWritable p) :
    Text.strip p.text.toList = p.text.toList := by
  have htype : p.type.toList ≠ [] := mt String.toList_eq_nil_iff.1 h.type.nonempty
  have hname : p.name.toList ≠ [] := mt String.toList_eq_nil_iff.1 h.name.nonempty
  rw [toList_text]
  refine Text.strip_eq_self (fun c hc => (h.type.plain c ?_).1) (fun c hc => (h.name.plain c ?_).1)
  · rw [List.head?_append_of_ne_nil _ htype] at hc
    exact List.mem_of_mem_head? hc
  · rw [List.append_cons, List.getLast?_append_of_ne_nil _ hname] at hc
    exact List.mem_of_mem_getLast? hc

/-- A parameter is read from its written form. -/
private theorem IsWritable.parse?_text {p : Parameter} (h : IsWritable p) :
    Parameter.parse? p.text.toList = some p := by
  have hspace {text : String} (h : IsWord text) : ' ' ∉ text.toList := fun hm =>
    absurd (h.plain ' ' hm).1 (by decide)
  rw [Parameter.parse?, h.strip_text, toList_text,
    List.splitOn_append_cons_self_of_not_mem (hspace h.type),
    List.splitOn_eq_singleton (hspace h.name)]
  simp

private theorem parse?_cons_space (piece : List Char) :
    Parameter.parse? (' ' :: piece) = Parameter.parse? piece := by
  rw [Parameter.parse?, Text.strip_cons_of_blank (by decide), Parameter.parse?]

/-- Each piece between commas is one parameter. -/
private theorem filterMap_pieces {params : List Parameter} (h : ∀ p ∈ params, IsWritable p) :
    (pieces (listed [',', ' '] (params.map fun p => p.text.toList))).filterMap Parameter.parse? =
      params := by
  have hcomma : ∀ text ∈ params.map fun p => p.text.toList, ',' ∉ text :=
    List.forall_mem_map.2 fun p hp hm => ((h p hp).plain _ hm).1 rfl
  cases params with
  | nil => rfl
  | cons first rest =>
    obtain ⟨hfirst, hrest⟩ := List.forall_mem_cons.1 h
    rw [listed, if_neg (by simp), pieces, List.map_cons, Text.splitOn_spaced hcomma,
      List.filterMap_cons_some hfirst.parse?_text, List.map_map, List.filterMap_map]
    congr 1
    calc rest.filterMap _ = rest.filterMap some :=
          List.filterMap_congr fun p hp => (parse?_cons_space _).trans (hrest p hp).parse?_text
      _ = rest := List.filterMap_some

private theorem parenthesized_results {returns : List String} (h : ∀ keyword ∈ returns, IsKeyword keyword) :
    parenthesized (results returns) = (listed [','] (returns.map String.toList), []) := by
  have hlist : ∀ text ∈ returns.map String.toList, text ≠ [] ∧ Unparenthesized text :=
    List.forall_mem_map.2 fun keyword hk => ⟨mt String.toList_eq_nil_iff.1 (h keyword hk).nonempty,
      fun c hc => ((h keyword hk).plain c hc).2⟩
  unfold results
  split
  · rename_i hnone
    rw [hnone]
    rfl
  · rw [← List.append_nil (group _), parenthesized_list (by decide) hlist]

/-- Each piece between commas is the keyword of one result. -/
private theorem ids_pieces {returns : List String} (h : ∀ keyword ∈ returns, IsKeyword keyword) :
    (categories (listed [','] (returns.map String.toList))).map Category.id =
      returns.map Registry.standard.idOf := by
  have hcomma : ∀ text ∈ returns.map String.toList, ',' ∉ text :=
    List.forall_mem_map.2 fun keyword hk hm => ((h keyword hk).plain _ hm).1 rfl
  cases returns with
  | nil => rfl
  | cons first rest =>
    rw [listed, if_neg (by simp), categories, pieces, List.splitOn_intercalate _ hcomma (by simp),
      List.map_map, List.map_map]
    refine List.map_congr_left fun keyword hk => ?_
    rw [Registry.idOf_standard, Function.comp_apply, Function.comp_apply, (h keyword hk).stripped,
      String.ofList_toList]

private theorem parse?_of_parenthesized {line rest rest' : Line} {params returns : Option (List Char)}
    (hne : line ≠ []) (hparams : parenthesized line = (params, rest))
    (hreturns : parenthesized rest = (returns, rest')) :
    parse? line = some ⟨(pieces params).filterMap Parameter.parse?, categories returns,
      String.ofList (returns.getD [])⟩ := by
  rw [parse?, if_neg hne, hparams]
  dsimp only
  rw [hreturns]
  rfl

/-- A signature that is written behind a header without parentheses is read back: the parameters in order,
with the names that the registry has for their types, the names that it has for the keywords of the results,
and the texts of both lists. -/
theorem parse?_written (header : String) (params : List Parameter) (returns : List String)
    (hheader : Unparenthesized header.toList) (hparams : ∀ p ∈ params, IsWritable p)
    (hreturns : ∀ keyword ∈ returns, IsKeyword keyword) :
    ∃ σ, parse? (written header params returns).toList = some σ ∧ σ.params = params ∧
      (σ.params.map fun p => p.category.id) = (params.map fun p => Registry.standard.idOf p.type) ∧
      σ.returns.map Category.id = returns.map Registry.standard.idOf ∧
      σ.paramsText = ", ".intercalate (params.map Parameter.text) ∧
      σ.returnsText = ",".intercalate returns := by
  have hne : (written header params returns).toList ≠ [] := by
    rw [toList_written]
    simp [group]
  have hline : parenthesized (written header params returns).toList =
      (listed [',', ' '] (params.map fun p => p.text.toList), results returns) := by
    have htexts : ∀ text ∈ params.map fun p => p.text.toList, text ≠ [] ∧ Unparenthesized text :=
      List.forall_mem_map.2 fun p hp =>
        ⟨by simp [toList_text], fun c hc => ((hparams p hp).plain c hc).2⟩
    rw [toList_written, parenthesized_append hheader, parenthesized_list (by decide) htexts]
  refine ⟨_, parse?_of_parenthesized hne hline (parenthesized_results hreturns), ?_⟩
  rw [filterMap_pieces hparams, getD_listed]
  refine ⟨rfl, ?_, ids_pieces hreturns, rfl, ?_⟩
  · exact List.map_congr_left fun p _ => (Registry.idOf_standard p.type).symm
  · rw [← String.toList_inj, String.toList_ofList, String.toList_intercalate]
    rfl

/-- Two parameters and two results, one of them with a blank in its keyword, which stands for no category. -/
theorem two_parameters_two_results_read :
    let params : List Parameter := [⟨"int", "$a"⟩, ⟨"obj", "$b"⟩]
    let returns := ["obj", "no type"]
    Unparenthesized "[proc,sum]".toList ∧ (∀ p ∈ params, IsWritable p) ∧
      (∀ keyword ∈ returns, IsKeyword keyword) ∧
      ∃ σ, parse? "[proc,sum](int $a, obj $b)(obj,no type)".toList = some σ ∧ σ.params = params ∧
        σ.returns.map Category.id = ["OBJ", "UNKNOWN"] ∧ σ.returnsText = "obj,no type" := by
  intro params returns
  have hheader : Unparenthesized "[proc,sum]".toList := by decide
  have hparams : ∀ p ∈ params, IsWritable p := by decide
  have hreturns : ∀ keyword ∈ returns, IsKeyword keyword := by decide
  obtain ⟨σ, hparse, hσ, -, hids, -, htext⟩ := parse?_written _ params returns hheader hparams hreturns
  have hwritten : written "[proc,sum]" params returns = "[proc,sum](int $a, obj $b)(obj,no type)" := by
    decide +kernel
  have hnames : returns.map Registry.standard.idOf = ["OBJ", "UNKNOWN"] := by decide +kernel
  exact ⟨hheader, hparams, hreturns, σ, hwritten ▸ hparse, hσ, hids.trans hnames, htext⟩

end Signature

end ScriptIndex
