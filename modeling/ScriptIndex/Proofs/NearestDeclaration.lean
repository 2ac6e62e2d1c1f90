import ScriptIndex.Proofs.Readings

/-! The declaration closest above a line of a file. The search goes through the keys that the file
declares, in whatever order they come, and keeps the lowest declaration it has seen; since the keys of a
file are those of the symbols declared in it, none is missed. -/
namespace ScriptIndex

namespace Symbol

/-- Whether a symbol of an accepted category is declared on a line of a file that lies above another
one. -/
def OffersAbove (file : String) (line : Int) (accepts : Category → Bool) (s : Symbol) (n : Int) : Prop :=
  accepts s.category = true ∧ n < line ∧
    ∃ l, s.declaration = some l ∧ fileKey? l.file = fileKey? file ∧ l.span.start.line = n

end Symbol

namespace SymbolTable

def offer? (t : SymbolTable) (line : Int) (accepts : Category → Bool) (key : String) :
    Option (Int × Symbol) := do
  let s ← t.symbols[key]?
  let start ← lineBefore? line accepts s
  return (start, s)

/-- The search for the closest declaration among keys, in their order. -/
def closest? (t : SymbolTable) (line : Int) (accepts : Category → Bool) (keys : List String) :
    Option Symbol :=
  ((keys.filterMap (t.offer? line accepts)).foldl lower none).map Prod.snd

private theorem parent?_eq_closest? [KeyOrder] (t : SymbolTable) (file : String) (line : Int)
    (accepts : Category → Bool) :
    t.parent? file line accepts = t.closest? line accepts (t.walkedKeys file) := by
  unfold parent? walkedKeys
  cases t.keysOf? file with
  | none => rfl
  | some entry => rfl

/-- The symbol declared closest above a line is one of the table. -/
theorem exists_key_of_parent? [KeyOrder] {t : SymbolTable} {file : String} {line : Int}
    {accepts : Category → Bool} {s : Symbol} (h : t.parent? file line accepts = some s) :
    ∃ key : String, t.symbols[key]? = some s := by
  rw [parent?_eq_closest?] at h
  obtain ⟨c, hc, rfl⟩ := Option.map_eq_some_iff.1 h
  rcases foldl_lower_mem hc with hn | hm
  · cases hn
  · obtain ⟨key, -, hm⟩ := List.mem_filterMap.1 hm
    obtain ⟨s, hs, hm⟩ := Option.bind_eq_some_iff.1 hm
    obtain ⟨start, -, hm⟩ := Option.bind_eq_some_iff.1 hm
    cases hm
    exact ⟨key, hs⟩

/-- An answer to the question for the closest declaration above a line: no symbol if none is declared
there, and else one that is declared no higher than any other. -/
structure Nearest (t : SymbolTable) (file : String) (line : Int) (accepts : Category → Bool)
    (answer : Option Symbol) : Prop where
  none_iff : answer = none ↔
    ∀ (key : String) (s : Symbol) (n : Int), t.symbols[key]? = some s → ¬ s.OffersAbove file line accepts n
  lowest : ∀ s, answer = some s → ∃ (key : String) (n : Int), t.symbols[key]? = some s ∧
    s.OffersAbove file line accepts n ∧
    ∀ (key' : String) (s' : Symbol) (n' : Int), t.symbols[key']? = some s' →
      s'.OffersAbove file line accepts n' → n' ≤ n

def OnLines (t : SymbolTable) : Prop :=
  ∀ (key : String) (l : Location), t.declarationOf key = some l → 0 ≤ l.span.start.line

private theorem lineBefore?_eq_some_iff {line n : Int} {accepts : Category → Bool} {s : Symbol} :
    lineBefore? line accepts s = some n ↔ ∃ l, s.declaration = some l ∧ l.span.start.line = n ∧
      0 ≤ n ∧ n < line ∧ accepts s.category = true := by
  unfold lineBefore?
  cases s.declaration with
  | none => simp
  | some l =>
    change (if 0 ≤ l.span.start.line ∧ l.span.start.line < line ∧ accepts s.category = true then
      some l.span.start.line else none) = some n ↔ _
    constructor
    · intro hn
      split at hn
      · rename_i hbetween
        cases hn
        exact ⟨l, rfl, rfl, hbetween⟩
      · cases hn
    · rintro ⟨_, ⟨⟩, rfl, hbetween⟩
      exact if_pos hbetween

private theorem offer?_eq_some_iff {t : SymbolTable} {line n : Int} {accepts : Category → Bool}
    {key : String}
    {s : Symbol} : t.offer? line accepts key = some (n, s) ↔
      t.symbols[key]? = some s ∧ lineBefore? line accepts s = some n := by
  unfold offer?
  cases t.symbols[key]? with
  | none => simp
  | some s' =>
    change (lineBefore? line accepts s').bind (fun start => some (start, s')) = some (n, s) ↔ _
    rw [Option.bind_eq_some_iff]
    constructor
    · rintro ⟨start, hstart, ⟨⟩⟩
      exact ⟨rfl, hstart⟩
    · rintro ⟨⟨⟩, hstart⟩
      exact ⟨n, hstart, rfl⟩

section
variable {t : SymbolTable} (h : t.Consistent)
include h

/-- The keys that a file declares are those of the symbols declared in it. -/
theorem mem_declaredKeys_iff {file key : String} {s : Symbol} {l : Location}
    (hs : t.symbols[key]? = some s) (hl : s.declaration = some l) :
    key ∈ t.declaredKeys file ↔ fileKey? l.file = fileKey? file := by
  have hdeclared : t.declarationOf key = some l := (declarationOf_of_some hs).trans hl
  have hknown : t.known? key = some s.told := by
    rw [known?_of_declarationOf (by rw [hdeclared]; rfl), toldOf, hs]
    rfl
  obtain ⟨f, -, hf, -⟩ := h.recordedOf hdeclared
  rw [mem_declaredKeys h hknown]
  simp [Symbol.told, hl, hf, eq_comm]

variable (hlines : t.OnLines) {file : String} {line : Int} {accepts : Category → Bool}
  {keys : List String} (hkeys : keys.Perm (t.declaredKeys file))
include hlines hkeys

/-- The candidates are the symbols declared in the file above the line. -/
private theorem mem_offers {n : Int} {s : Symbol} : (n, s) ∈ keys.filterMap (t.offer? line accepts) ↔
    ∃ key : String, t.symbols[key]? = some s ∧ s.OffersAbove file line accepts n := by
  simp only [List.mem_filterMap, hkeys.mem_iff, offer?_eq_some_iff, lineBefore?_eq_some_iff]
  refine exists_congr fun key => ?_
  constructor
  · rintro ⟨hkey, hs, l, hl, hn, -, hlt, haccepts⟩
    exact ⟨hs, haccepts, hlt, l, hl, (mem_declaredKeys_iff h hs hl).1 hkey, hn⟩
  · rintro ⟨hs, haccepts, hlt, l, hl, hfile, rfl⟩
    exact ⟨(mem_declaredKeys_iff h hs hl).2 hfile, hs, l, hl, rfl,
      hlines key l ((declarationOf_of_some hs).trans hl), hlt, haccepts⟩

/-- The search finds a closest declaration, in whatever order the keys come. -/
theorem nearest_closest? : t.Nearest file line accepts (t.closest? line accepts keys) where
  none_iff := by
    rw [closest?, Option.map_eq_none_iff, foldl_lower_eq_none_iff, List.eq_nil_iff_forall_not_mem]
    constructor
    · rintro ⟨-, hnone⟩ key s n hs hoffers
      exact hnone (n, s) ((mem_offers h hlines hkeys).2 ⟨key, hs, hoffers⟩)
    · intro hnone
      refine ⟨rfl, ?_⟩
      rintro ⟨n, s⟩ hmem
      obtain ⟨key, hs, hoffers⟩ := (mem_offers h hlines hkeys).1 hmem
      exact hnone key s n hs hoffers
  lowest s hs := by
    obtain ⟨⟨n, s⟩, hc, rfl⟩ := Option.map_eq_some_iff.1 hs
    have hmem : (n, s) ∈ keys.filterMap (t.offer? line accepts) :=
      (foldl_lower_mem hc).resolve_left (by simp)
    obtain ⟨key, hkey, hoffers⟩ := (mem_offers h hlines hkeys).1 hmem
    refine ⟨key, n, hkey, hoffers, ?_⟩
    intro key' s' n' hs' hoffers'
    exact (le_of_foldl_lower hc).2 (n', s') ((mem_offers h hlines hkeys).2 ⟨key', hs', hoffers'⟩)

end

/-- An operation puts a declaration only where it declares a symbol. -/
theorem declarationOf_perform {t : SymbolTable} (h : t.Consistent) {op : Operation} {key : String}
    {l : Location} (hl : (t.perform op).1.declarationOf key = some l) :
    t.declarationOf key = some l ∨ ∃ name role excerpt, op = .declare name role l excerpt := by
  cases op with
  | declare name role location excerpt =>
    rw [perform_declare] at hl
    cases hr : t.declare name role location excerpt with
    | error e =>
      rw [hr] at hl
      exact .inl hl
    | ok r =>
      rw [hr] at hl
      dsimp only at hl
      rcases declare_cases hr with ⟨-, rfl⟩ | ⟨_, _, _, _, _, rfl⟩ | ⟨k, file, s, -, -, -, hs, he, -⟩
      · exact .inl hl
      · exact .inl hl
      · have hrecorded : (t.recordDeclaration k file (t.inherit k s) location.span.start).declarationOf key =
            if k = key then s.declaration else t.declarationOf key := declarationOf_record ..
        rw [he, hrecorded] at hl
        split at hl
        · cases (Symbol.declared_places hs).2.2.1.symm.trans hl
          exact .inr ⟨name, role, excerpt, rfl⟩
        · exact .inl hl
  | refer name role file p packId =>
    rw [perform_refer] at hl
    rcases refer_cases t name role file p packId with he | ⟨k, f, s, -, -, hs, he⟩
    · rw [he] at hl
      exact .inl hl
    · rw [he, declarationOf_record] at hl
      split at hl
      · rename_i hk
        rw [(places_of_refer hs).2, hk] at hl
        exact .inl hl
      · exact .inl hl
  | clearFile file =>
    rw [perform_clearFile] at hl
    cases hf : fileKey? file with
    | none =>
      rw [clearFile_of_no_key hf] at hl
      exact .inl hl
    | some f =>
      rw [h.declarationOf_clearFile hf] at hl
      exact .inl (Option.filter_eq_some_iff.1 hl).1
  | clear => simp [perform_clear, declarationOf] at hl

private theorem onLines_run {t : SymbolTable} (h : t.Consistent) (hlines : t.OnLines) {ops : List Operation}
    (hops : ∀ name role l excerpt, Operation.declare name role l excerpt ∈ ops → 0 ≤ l.span.start.line) :
    (t.run ops).OnLines := by
  induction ops generalizing t with
  | nil => exact hlines
  | cons op ops ih =>
    apply ih (h.perform op)
    · intro key l hl
      rcases declarationOf_perform h hl with hl | ⟨name, role, excerpt, rfl⟩
      · exact hlines key l hl
      · exact hops name role l excerpt List.mem_cons_self
    · intro name role l excerpt hmem
      exact hops name role l excerpt (List.mem_cons_of_mem op hmem)

/-- In a table that was built by operations with every declaration on a line of its file, the search
answers with nothing exactly if no symbol of an accepted category is declared in the file above the
line, and else with one that is declared no higher than any other. So it does in whatever order it goes
through the keys of the file. -/
theorem parent?_nearest [KeyOrder] (ops : List Operation)
    (hops : ∀ name role l excerpt, Operation.declare name role l excerpt ∈ ops → 0 ≤ l.span.start.line)
    (file : String) (line : Int) (accepts : Category → Bool) :
    let t := run {} ops
    t.Nearest file line accepts (t.parent? file line accepts) ∧
      ∀ keys, keys.Perm (t.declaredKeys file) →
        t.Nearest file line accepts (t.closest? line accepts keys) := by
  intro t
  have hconsistent : t.Consistent := Consistent.empty.run ops
  have hlines : t.OnLines := onLines_run .empty (fun key l hl => by simp [declarationOf] at hl) hops
  constructor
  · rw [parent?_eq_closest?]
    exact nearest_closest? hconsistent hlines (t.walkedKeys_perm file)
  · intro keys hkeys
    exact nearest_closest? hconsistent hlines hkeys

section
attribute [local instance] KeyOrder.ascending

/-- Of two objs above a line the lower one is found; it was declared first, and a proc stands between it
and the line. -/
theorem lower_obj_nearest :
    let ops : List Operation := [
      .declare "gold_bar" (.declaration .obj) (.at "a.obj" 5 1 0) ⟨["[gold_bar]".toList], 0⟩,
      .declare "coins" (.declaration .obj) (.at "a.obj" 0 1 0) ⟨["[coins]".toList], 0⟩,
      .declare "helper" (.declaration .proc) (.at "a.obj" 6 6 0) ⟨["[proc,helper]".toList], 0⟩]
    (∀ name role l excerpt, Operation.declare name role l excerpt ∈ ops → 0 ≤ l.span.start.line) ∧
      ∃ s, (run {} ops).parent? "a.obj" 8 (· = .obj) = some s ∧ s.name = "gold_bar" ∧
        (run {} ops).Nearest "a.obj" 8 (· = .obj) (some s) := by
  intro ops
  have hops : ∀ name role l excerpt, Operation.declare name role l excerpt ∈ ops →
      0 ≤ l.span.start.line := by
    intro name role l excerpt hmem
    simp only [ops, List.mem_cons, Operation.declare.injEq, List.not_mem_nil, or_false] at hmem
    rcases hmem with ⟨-, -, rfl, -⟩ | ⟨-, -, rfl, -⟩ | ⟨-, -, rfl, -⟩ <;> decide
  obtain ⟨s, hs, hname⟩ := Option.map_eq_some_iff.1
    (show ((run {} ops).parent? "a.obj" 8 (· = .obj)).map Symbol.name = some "gold_bar" by decide +kernel)
  refine ⟨hops, s, hs, hname, ?_⟩
  rw [← hs]
  exact (parent?_nearest ops hops "a.obj" 8 (· = .obj)).1

end

end SymbolTable

end ScriptIndex
