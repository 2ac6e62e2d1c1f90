import Mathlib.Data.List.Infix
import ScriptIndex.Proofs.PassStates

/-! Two passes over files reach a fixpoint as long as commands are in the index only when they are
declared, and no two symbols are declared on one line. Then the second pass declares nothing new, and what
a word of it reads is what the same word of a third pass reads. -/
namespace ScriptIndex

namespace Index

/-- Every command in the index is declared. -/
def CommandsDeclared (i : Index) : Prop :=
  ∀ name s, i.symbols.get? name .command = some s → s.declaration.isSome = true

def isCommandKey (k : String) : Bool :=
  Category.command.id.toList.isSuffixOf k.toList && k != Category.command.id

private theorem isCommandKey_iff {k : String} :
    isCommandKey k = true ↔ ∃ name, Symbol.key? name .command = some k := by
  unfold isCommandKey Symbol.key?
  rw [Bool.and_eq_true, List.isSuffixOf_iff_suffix, bne_iff_ne]
  constructor
  · rintro ⟨⟨front, hf⟩, hne⟩
    have hk : String.ofList front ++ Category.command.id = k := by
      rw [← String.toList_inj, String.toList_append, String.toList_ofList, hf]
    refine ⟨String.ofList front, ?_⟩
    rw [if_neg, hk]
    intro he
    rw [he] at hk
    exact hne (by rw [← hk]; simp)
  · rintro ⟨name, hk⟩
    split at hk
    · cases hk
    · rename_i hne
      cases hk
      refine ⟨⟨name.toList, by simp⟩, fun he => hne ?_⟩
      have hl := congrArg String.length he
      rw [String.length_append] at hl
      exact String.length_eq_zero_iff.1 (by omega)

instance (i : Index) : Decidable i.CommandsDeclared :=
  decidable_of_iff (∀ p ∈ i.symbols.symbols.toList, isCommandKey p.1 = true →
    p.2.declaration.isSome = true) <| by
  unfold CommandsDeclared SymbolTable.get?
  constructor
  · intro h name s hs
    obtain ⟨k, hk, hs⟩ := Option.bind_eq_some_iff.1 hs
    exact h (k, s) (Std.ExtTreeMap.mem_toList_iff_getElem?_eq_some.2 hs) (isCommandKey_iff.2 ⟨name, hk⟩)
  · rintro h ⟨k, s⟩ hs hk
    obtain ⟨name, hk⟩ := isCommandKey_iff.1 hk
    exact h name s (by rw [hk]; exact Std.ExtTreeMap.mem_toList_iff_getElem?_eq_some.1 hs)

/-- A declared command stays what it is with more declared elsewhere. -/
private theorem CommandsDeclared.command_cases {i j : Index} (hi : i.CommandsDeclared) {file : String}
    {number : Int} (h : SymbolTable.Below file number i.symbols j.symbols) (ctx : WordContext) :
    Rules.command ctx i = none ∨ Rules.command ctx i = Rules.command ctx j := by
  unfold Rules.command
  cases hs : i.symbols.get? ctx.word.value .command with
  | none => exact .inl rfl
  | some s =>
    obtain ⟨k, hk, hsk⟩ := Option.bind_eq_some_iff.1 hs
    have hknown : i.symbols.known? k = some s.told := by
      rw [SymbolTable.known?_of_declarationOf, SymbolTable.toldOf, hsk]
      · rfl
      · rw [SymbolTable.declarationOf_of_some hsk]
        exact hi _ s hs
    obtain ⟨s', hs', he, -⟩ := SymbolTable.known?_some (h.known k _ hknown)
    have hget : j.symbols.get? ctx.word.value .command = some s' := by
      rw [SymbolTable.get?, hk]
      exact hs'
    have hsignature : s'.told.signature = s.told.signature := by rw [he]
    change s'.signature = s.signature at hsignature
    rw [hget]
    simp only [hsignature]
    exact .inr trivial

private theorem CommandsDeclared.of_toldOf_eq {i j : Index} (hi : i.CommandsDeclared)
    (h : ∀ k, j.symbols.toldOf k = i.symbols.toldOf k) : j.CommandsDeclared := by
  intro name s hs
  obtain ⟨k, hk, hsk⟩ := Option.bind_eq_some_iff.1 hs
  have htold := h k
  rw [SymbolTable.toldOf, hsk] at htold
  obtain ⟨s', hs', he⟩ := Option.map_eq_some_iff.1 htold.symm
  have hdeclaration : s'.told.declaration = s.told.declaration := by rw [he]
  change s'.declaration = s.declaration at hdeclaration
  rw [← hdeclaration]
  exact hi name s' (by rw [SymbolTable.get?, hk]; exact hs')

private theorem CommandsDeclared.command?_cases {i j : Index} (hi : i.CommandsDeclared) {file : String}
    {number : Int} (h : SymbolTable.Below file number i.symbols j.symbols) (ctx : WordContext) :
    Rule.command? ctx i = none ∨ Rule.command? ctx i = Rule.command? ctx j := by
  unfold Rule.command?
  split
  · exact .inl rfl
  · exact hi.command_cases h ctx

/-- A word that counts as a command stands for a command in the index. -/
private theorem key?_of_command? [KeyOrder] {i : Index} {l : FileLine} {w : Word} {e : Entry} {r : Role}
    (hc : Rule.command? (l.context w) i = some r) (he : i.entryOf? l w = some e) :
    ∃ s, e.key?.bind (i.symbols.symbols[·]?) = some s ∧ i.symbols.get? w.value .command = some s := by
  obtain ⟨-, -, hc'⟩ := Rule.command?_eq_some hc
  have hcategory : e.found.role.category = .command := by
    rw [role_of_command? hc he]
    rcases Rules.command_eq_some hc' with rfl | ⟨rfl, -⟩ <;> rfl
  unfold Rules.command at hc'
  cases hs : i.symbols.get? w.value .command with
  | none =>
    have hs' : i.symbols.get? (l.context w).word.value .command = none := hs
    rw [hs'] at hc'
    cases hc'
  | some s =>
    refine ⟨s, ?_, rfl⟩
    rw [key?_of_category_command he hcategory]
    exact hs

/-- Lines that find the same write the same. -/
theorem writes_congr [KeyOrder] {i j : Index} {ls : List FileLine}
    (h : ∀ A l B, ls = A ++ l :: B → (i.after A).found l = (j.after A).found l) :
    i.writes ls = j.writes ls := by
  induction ls generalizing i j with
  | nil => rfl
  | cons l ls ih =>
    rw [writes, writes, ih fun A m B hls => h (l :: A) m B (by rw [hls]; rfl)]
    exact congrArg (· ++ _) (h [] l ls rfl)

section
variable {s : Index} {ls : List FileLine}

/-- The second pass declares nothing that the first one has not declared. -/
theorem known?_second [KeyOrder] (hs : s.symbols.Indexed) (hordered : FileLine.Ordered ls)
    (hcommands : ∀ ms, ms <+: ls ++ ls → (s.after ms).CommandsDeclared)
    (hapart : ((s.after ls).after ls).symbols.Apart) {A B : List FileLine} (hls : ls = A ++ B)
    (k : String) :
    ((s.after ls).after A).symbols.known? k = (s.after ls).symbols.known? k := by
  subst hls
  refine known?_again (fun A' l B' hA hknown e he hd => ?_) k
  have hfirst : (s.after A').CommandsDeclared :=
    hcommands A' ⟨l :: B' ++ (A ++ B), by rw [hA]; simp⟩
  have hsecond : ((s.after (A ++ B)).after A').CommandsDeclared := by
    rw [← after_append]
    exact hcommands _ ⟨l :: B', by rw [List.append_assoc, ← hA]⟩
  have hbelow := below_again hordered hA hknown
  obtain ⟨w, hw, hew⟩ := List.mem_filterMap.1 he
  cases hc : Rule.command? (l.context w) ((s.after (A ++ B)).after A') with
  | some r =>
    -- A command in the index is declared, and so it was after the first pass.
    obtain ⟨x, hx, hget⟩ := key?_of_command? hc hew
    refine .inr fun k hk => ?_
    rw [hk, Option.bind_some] at hx
    rw [← hknown, SymbolTable.known?_of_declarationOf, SymbolTable.toldOf, hx]
    · rfl
    · rw [SymbolTable.declarationOf_of_some hx]
      exact hsecond _ x hget
  | none =>
    have hsame : Rule.command? (l.context w) (s.after A') =
        Rule.command? (l.context w) ((s.after (A ++ B)).after A') := by
      rcases hfirst.command?_cases hbelow (l.context w) with h | h
      · rw [h, hc]
      · exact h
    have hshows := hbelow.shows (indexed_after hs _) (indexed_after (indexed_after hs _) _)
      (apart_again hapart hA)
    exact .inl (List.mem_filterMap.2 ⟨w, hw, entryOf?_declares hshows hsame hew hd⟩)

/-- Two indices that know the same and in which the same holds on a line find the same on it. -/
private theorem found_eq [KeyOrder] {i j : Index} {l : FileLine}
    (hknown : ∀ k, i.symbols.known? k = j.symbols.known? k)
    (hi : i.symbols.Indexed) (hj : j.symbols.Indexed) (hci : i.CommandsDeclared)
    (hcj : j.CommandsDeclared) (hapart : j.symbols.Apart) (hs : SameOn l.file l.number i j) :
    i.found l = j.found l := by
  have hij : SymbolTable.Below l.file l.number i.symbols j.symbols := .of_known?_eq hknown
  have hji : SymbolTable.Below l.file l.number j.symbols i.symbols :=
    .of_known?_eq fun k => (hknown k).symm
  have hiapart : i.symbols.Apart := hapart.of_known hij.known
  refine found_eq_of_shows (hij.shows hi hj hapart) (hji.shows hj hi hiapart) (fun ctx => ?_) hs
  rcases hci.command?_cases hij ctx with h | h
  · rcases hcj.command?_cases hji ctx with h' | h'
    · rw [h, h']
    · exact h'.symm
  · exact h

/-- A third pass finds on every line what the second one found. -/
theorem found_third [KeyOrder] (hs : s.symbols.Indexed) (hordered : FileLine.Ordered ls)
    (hcommands : ∀ ms, ms <+: ls ++ ls → (s.after ms).CommandsDeclared)
    (hapart : ((s.after ls).after ls).symbols.Apart) {A B : List FileLine} {l : FileLine}
    (hls : ls = A ++ l :: B) :
    (((s.after ls).after ls).after A).found l = ((s.after ls).after A).found l := by
  induction hn : A.length using Nat.strong_induction_on generalizing A B l with
  | h n ih =>
    have hlines (A' : List FileLine) (m : FileLine) (B' : List FileLine) (hA : A = A' ++ m :: B') :
        (((s.after ls).after ls).after A').found m = ((s.after ls).after A').found m := by
      refine ih A'.length ?_ (hls.trans (by rw [hA, List.append_assoc]; rfl)) rfl
      rw [← hn, hA]
      simp
    have hsecond : (s.after ls).after ls = ((s.after ls).after A).after (l :: B) := by
      rw [← (s.after ls).after_append, ← hls]
    have htold (k : String) : (((s.after ls).after ls).after A).symbols.toldOf k =
        ((s.after ls).after ls).symbols.toldOf k := by
      rw [symbols_after _ A, writes_congr hlines, symbols_after (s.after ls) ls]
      refine SymbolTable.toldOf_putAll_again _ ?_ k
      rw [hls, writes_append]
      exact List.subset_append_left _ _
    have hknown (k : String) : (((s.after ls).after ls).after A).symbols.known? k =
        ((s.after ls).after A).symbols.known? k := by
      rw [SymbolTable.known?, htold, ← SymbolTable.known?,
        known?_second hs hordered hcommands hapart (B := []) (by simp),
        known?_second hs hordered hcommands hapart hls]
    have hcommandsA : ((s.after ls).after A).CommandsDeclared := by
      rw [← after_append]
      exact hcommands _ ⟨l :: B, by rw [List.append_assoc, ← hls]⟩
    have hcommandsL : ((s.after ls).after ls).CommandsDeclared := by
      rw [← after_append]
      exact hcommands _ (List.prefix_refl _)
    have hvalues : SameValues (((s.after ls).after ls).after A) ((s.after ls).after ls) := by
      have hagain := sameValues_again (s := s.after ls) (A := A) (B := l :: B)
        (hls ▸ hordered) ((s.after ls).after ls).symbols.known?
      rw [← hls] at hagain
      refine hagain (fun k x hx => ?_) fun A' m B' hA => ?_
      · rwa [SymbolTable.known?, htold] at hx
      · exact .inr (by rw [hlines A' m B' hA])
    have hupTo : SameUpTo l.file l.number ((s.after ls).after ls) ((s.after ls).after A) := by
      rw [hsecond]
      exact sameUpTo_after _ (hls ▸ hordered).notAbove
    exact found_eq hknown (indexed_after (indexed_after (indexed_after hs _) _) _)
      (indexed_after (indexed_after hs _) _) (hcommandsL.of_toldOf_eq htold) hcommandsA
      (apart_again hapart hls)
      ((hvalues.upTo l.file l.number).trans hupTo).sameOn

/-- A third pass changes nothing. -/
theorem after_third [KeyOrder] (ht : s.Tidy) (hs : s.symbols.Plain) (hordered : FileLine.Ordered ls)
    (hcommands : ∀ ms, ms <+: ls ++ ls → (s.after ms).CommandsDeclared)
    (hapart : ((s.after ls).after ls).symbols.Apart) :
    ((s.after ls).after ls).after ls = (s.after ls).after ls := by
  have hindexed : s.symbols.Indexed := ⟨ht.symbols, hs⟩
  have hlines (A : List FileLine) (l : FileLine) (B : List FileLine) (hls : ls = A ++ l :: B) :=
    found_third hindexed hordered hcommands hapart hls
  have hsymbols : (((s.after ls).after ls).after ls).symbols = ((s.after ls).after ls).symbols := by
    rw [symbols_after _ ls, writes_congr hlines, symbols_after (s.after ls) ls]
    exact SymbolTable.putAll_idempotent (ht.after ls).symbols _
  have hvalues : SameValues (((s.after ls).after ls).after ls) ((s.after ls).after ls) := by
    have hagain := sameValues_again (s := s.after ls) (A := ls) (B := [])
      (by simpa using hordered) ((s.after ls).after ls).symbols.known?
    rw [List.append_nil] at hagain
    refine hagain (fun k x hx => ?_) fun A l B hA => ?_
    · rwa [hsymbols] at hx
    · exact .inr (by rw [hlines A l B hA])
  have h2 := (ht.after ls).after ls
  exact (h2.after ls).ext h2 hsymbols hvalues (scripts_after _ ls)

end

end Index

namespace Workspace

/-- Two passes from a cleared index reach a fixpoint, as long as commands are in the index only when
they are declared, and no two symbols are declared on one line of a file: indexing the same files once
more changes nothing, in whatever order sets of keys are walked. -/
theorem indexFiles_indexTwice [KeyOrder] (i : Index) (files : List (String × String))
    (hkeys : (files.map fun f => fileKey? f.1).Nodup)
    (hcommands : ∀ ls, ls <+: FileLine.ofFiles files ++ FileLine.ofFiles files →
      (i.clear.after ls).CommandsDeclared)
    (hapart : ∀ j, indexTwice i.clear files = .ok j → j.symbols.Apart) :
    ∃ j, indexTwice i.clear files = .ok j ∧ indexFiles j files = .ok j := by
  have htwice := indexTwice_eq i.clear files
  refine ⟨_, htwice, ?_⟩
  rw [indexFiles_eq, Index.after_third (.clear i) .empty (FileLine.ordered_ofFiles hkeys) hcommands
    (hapart _ htwice)]

section
attribute [local instance] KeyOrder.ascending

/-- A call before the callee and a command before its declaration are settled after two passes. -/
theorem indexFiles_indexTwice_calls_ahead :
    let files := [("a.rs2", "[proc,a]\n~b(coins)\nmes(coins)\n[proc,b](obj $x)"),
      ("engine.rs2", "[command,mes](obj $o)")]
    (files.map fun f => fileKey? f.1).Nodup ∧
      (∀ ls, ls <+: FileLine.ofFiles files ++ FileLine.ofFiles files →
        (({} : Index).clear.after ls).CommandsDeclared) ∧
      (∀ j, indexTwice ({} : Index).clear files = .ok j → j.symbols.Apart) ∧
      ∃ j, indexTwice ({} : Index).clear files = .ok j ∧ indexFiles j files = .ok j := by
  intro files
  have hkeys : (files.map fun f => fileKey? f.1).Nodup := by decide +kernel
  have hcommands : ∀ ls, ls <+: FileLine.ofFiles files ++ FileLine.ofFiles files →
      (({} : Index).clear.after ls).CommandsDeclared := by
    have hall : ∀ ls ∈ (FileLine.ofFiles files ++ FileLine.ofFiles files).inits,
        (({} : Index).clear.after ls).CommandsDeclared := by decide +kernel
    exact fun ls hls => hall ls ((List.mem_inits _ _).2 hls)
  have hapart : ∀ j, indexTwice ({} : Index).clear files = .ok j → j.symbols.Apart := by
    intro j hj
    rw [indexTwice_eq] at hj
    obtain rfl := Except.ok.inj hj
    decide +kernel
  exact ⟨hkeys, hcommands, hapart, indexFiles_indexTwice {} files hkeys hcommands hapart⟩

private abbrev turning : KeyOrder where
  walk keys := if keys.size % 2 = 0 then keys.toList else keys.toList.reverse
  walk_perm keys := by
    split
    · exact .refl _
    · exact List.reverse_perm _

/-- An argument makes a command that nothing declares, and from then on the same word counts as a
command everywhere: a third pass refers to it on the first line. Of two tables that one line declares it
depends on the order of a set to which a column belongs, and each answer may add to the set. -/
theorem undeclared_command_unsettled :
    let scripts := [("a.rs2", "bar\n~foo(bar)\n[proc,foo](command $c)")]
    let tables := [("a.dbtable", "[quest-list]\ncolumn=c0,int\ncolumn=c1,int")]
    ((scripts.map fun f => fileKey? f.1).Nodup ∧
      ¬ ∃ j, indexTwice ({} : Index).clear scripts = .ok j ∧ indexFiles j scripts = .ok j) ∧
    (tables.map fun f => fileKey? f.1).Nodup ∧
      ∃ _ : KeyOrder, ¬ ∃ j, indexTwice ({} : Index).clear tables = .ok j ∧
        indexFiles j tables = .ok j := by
  intro scripts tables
  refine ⟨⟨by decide +kernel, ?_⟩, by decide +kernel, turning, ?_⟩
  · rintro ⟨j, hj, hthird⟩
    rw [indexTwice_eq] at hj
    obtain rfl := Except.ok.inj hj
    rw [indexFiles_eq] at hthird
    have hcount := congrArg
      (fun i : Index => (i.symbols.symbols["barCOMMAND"]?).map Symbol.referenceCount)
      (Except.ok.inj hthird)
    revert hcount
    decide +kernel
  · rintro ⟨j, hj, hthird⟩
    rw [@indexTwice_eq turning] at hj
    obtain rfl := Except.ok.inj hj
    rw [@indexFiles_eq turning] at hthird
    have hsize := congrArg (fun i : Index => i.symbols.size) (Except.ok.inj hthird)
    revert hsize
    decide +kernel

end

end Workspace

end ScriptIndex
