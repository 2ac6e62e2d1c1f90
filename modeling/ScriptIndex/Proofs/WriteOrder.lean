import Mathlib.Data.List.Pairwise
import ScriptIndex.Proofs.IndexedLines

namespace ScriptIndex.SymbolTable
open Std

/-- A declaration or reference with the keys of its symbol and of its file. A declaration has built its
symbol. -/
structure Write where
  name : String
  role : Role
  key : String
  file : String
  position : Position
  packId : Option String
  declared : Option Symbol

namespace Write

def symbol (w : Write) (current : Option Symbol) : Option Symbol :=
  match w.declared with
  | some s =>
    if (current.bind Symbol.declaration).isSome then current
    else some { s with
      references := addPosition w.file w.position ((current.map Symbol.references).getD ∅)
      packId := (current.bind fun c => givenId? c.packId).or s.packId }
  | none =>
    let s := current.getD (Symbol.placeholder w.name w.role)
    some { s with
      references := addPosition w.file w.position s.references
      packId := (givenId? w.packId).or s.packId }

def keys (w : Write) (entry : Option FileKeys) : Option FileKeys :=
  addReferenced w.key (if w.declared.isSome then addDeclared w.key entry else entry)

def isIdle (t : SymbolTable) (w : Write) : Bool :=
  w.declared.isSome && (t.declarationOf w.key).isSome

/-- Two writes that do not contradict each other: about one key they name the same symbol, do not both
declare it, and do not give it different pack ids. -/
structure Compatible (a b : Write) : Prop where
  placeholder : a.key = b.key →
    Symbol.placeholder a.name a.role = Symbol.placeholder b.name b.role
  declared : a.key = b.key → a.declared = none ∨ b.declared = none
  ids : a.key = b.key → ∀ id id', givenId? a.packId = some id → givenId? b.packId = some id' → id = id'

end Write

def write (t : SymbolTable) (w : Write) : SymbolTable :=
  if w.isIdle t then t
  else match w.declared with
    | some s => t.recordDeclaration w.key w.file (t.inherit w.key s) w.position
    | none => t.record w.key w.file ((t.symbols[w.key]?).getD (Symbol.placeholder w.name w.role))
        w.position w.packId

private theorem symbols_write (t : SymbolTable) (w : Write) (k : String) :
    (t.write w).symbols[k]? = if w.key = k then w.symbol t.symbols[k]? else t.symbols[k]? := by
  unfold write Write.isIdle Write.symbol
  by_cases hk : w.key = k
  · subst hk
    rw [if_pos rfl]
    cases hd : w.declared with
    | none => simp [symbols_record]
    | some s =>
      by_cases hi : (t.declarationOf w.key).isSome = true
      · have hi' : ((t.symbols[w.key]?).bind Symbol.declaration).isSome = true := hi
        simp [hi, hi']
      · have hi' : ¬ ((t.symbols[w.key]?).bind Symbol.declaration).isSome = true := hi
        simp [hi, hi', symbols_recordDeclaration, symbols_record, inherit, referencesOf, givenId?]
  · rw [if_neg hk]
    split
    · rfl
    · split
      · rw [symbols_recordDeclaration, symbols_record, if_neg hk]
      · rw [symbols_record, if_neg hk]

private theorem files_write (t : SymbolTable) (w : Write) (f : String) :
    (t.write w).files[f]? =
      if w.file = f ∧ w.isIdle t = false then w.keys t.files[f]? else t.files[f]? := by
  unfold write Write.keys
  by_cases hi : w.isIdle t = true
  · simp [hi]
  · rw [if_neg hi]
    cases w.declared with
    | none => simp [files_record, hi]
    | some s => simp [files_recordDeclaration, hi]

private theorem insert_comm (keys : ExtTreeSet String) (a b : String) :
    (keys.insert a).insert b = (keys.insert b).insert a := by
  apply ExtTreeSet.ext_mem
  intro k
  simp [or_left_comm]

private theorem addPosition_comm (f g : String) (p q : Position) (r : References) :
    addPosition f p (addPosition g q r) = addPosition g q (addPosition f p r) := by
  apply ExtTreeMap.ext_getElem?
  intro h
  simp only [getElem?_addPosition]
  by_cases hf : f = h
  · by_cases hg : g = h
    · simp only [hf, hg, if_true, Option.getD_some, Option.some.injEq]
      apply ExtTreeSet.ext_mem
      intro k
      simp [or_left_comm]
    · simp [hf, hg]
  · simp [hf]

namespace Write

private theorem keys_comm (a b : Write) (entry : Option FileKeys) :
    a.keys (b.keys entry) = b.keys (a.keys entry) := by
  unfold keys addReferenced addDeclared
  cases a.declared.isSome <;> cases b.declared.isSome <;>
    simp [insert_comm _ a.key b.key]

private theorem givenId?_givenId? (id : Option String) : givenId? (givenId? id) = givenId? id := by
  simp [givenId?, Option.filter_filter]

private theorem givenId?_or (id packId : Option String) :
    givenId? ((givenId? id).or packId) = (givenId? id).or (givenId? packId) := by
  cases hid : givenId? id with
  | none => simp
  | some i => rw [Option.some_or, Option.some_or, ← hid, givenId?_givenId?]

/-- A declaration and a reference of one symbol. -/
private theorem symbol_comm_of_declares {a b : Write} {s : Symbol} (ha : a.declared = some s)
    (hb : b.declared = none) (current : Option Symbol) :
    a.symbol (b.symbol current) = b.symbol (a.symbol current) := by
  -- A placeholder is what the declaration finds as well without it: no place, and no pack id.
  obtain ⟨-, hid, hdeclaration, hreferences⟩ := Symbol.placeholder_places b.name b.role
  unfold symbol
  simp only [ha, hb]
  cases current with
  | none => simp [hdeclaration, hreferences, hid, addPosition_comm a.file, givenId?_givenId?]
  | some c =>
    cases hc : c.declaration with
    | none => simp [hc, addPosition_comm a.file, givenId?_or, Option.or_assoc]
    | some l => simp [hc]

/-- Writes of one symbol commute on it. -/
theorem symbol_comm {a b : Write} (hk : a.key = b.key) (h : a.Compatible b)
    (current : Option Symbol) : a.symbol (b.symbol current) = b.symbol (a.symbol current) := by
  cases ha : a.declared with
  | some s =>
    have hb : b.declared = none := (h.declared hk).resolve_left (by simp [ha])
    exact symbol_comm_of_declares ha hb current
  | none =>
    cases hb : b.declared with
    | some s => exact (symbol_comm_of_declares hb ha current).symm
    | none =>
      have hids (packId : Option String) : (givenId? a.packId).or ((givenId? b.packId).or packId) =
          (givenId? b.packId).or ((givenId? a.packId).or packId) := by
        cases hia : givenId? a.packId with
        | none => simp
        | some id =>
          cases hib : givenId? b.packId with
          | none => simp
          | some id' => rw [h.ids hk id id' hia hib]
      unfold symbol
      simp [ha, hb, h.placeholder hk, addPosition_comm a.file, hids]

end Write

/-- A write leaves it to another one whether that finds its symbol declared. -/
private theorem Write.isIdle_write {t : SymbolTable} {a b : Write} (h : a.Compatible b) :
    a.isIdle (t.write b) = a.isIdle t := by
  unfold isIdle declarationOf
  rw [symbols_write]
  split
  · rename_i hk
    cases hb : b.declared with
    | some s => rw [(h.declared hk.symm).resolve_right (by simp [hb])]; rfl
    | none =>
      have hd := (Symbol.placeholder_places b.name b.role).2.2.1
      cases hs : t.symbols[a.key]? <;> simp [symbol, hb, hd]
  · rfl

/-- Compatible writes commute in every state. -/
theorem write_comm (t : SymbolTable) {a b : Write} (h : a.Compatible b) (h' : b.Compatible a) :
    (t.write a).write b = (t.write b).write a := by
  have hsymbols : ((t.write a).write b).symbols = ((t.write b).write a).symbols := by
    apply ExtTreeMap.ext_getElem?
    intro k
    simp only [symbols_write]
    by_cases ha : a.key = k
    · by_cases hb : b.key = k
      · simp only [ha, hb, if_true]
        exact (Write.symbol_comm (ha.trans hb.symm) h _).symm
      · simp [hb]
    · simp [ha]
  have hfiles : ((t.write a).write b).files = ((t.write b).write a).files := by
    apply ExtTreeMap.ext_getElem?
    intro f
    simp only [files_write, Write.isIdle_write h, Write.isIdle_write h']
    by_cases ha : a.file = f ∧ a.isIdle t = false
    · by_cases hb : b.file = f ∧ b.isIdle t = false
      · simp only [ha, hb, and_self, if_true]
        exact Write.keys_comm b a _
      · simp only [ha, hb, and_self, if_true, if_false]
    · simp only [ha, if_false]
  exact congrArg₂ SymbolTable.mk hsymbols hfiles

private theorem refer_eq_write (t : SymbolTable) {name key file f : String} {role : Role}
    (hk : Symbol.key? name role.category = some key) (hf : fileKey? file = some f)
    (hc : role.category ≠ .unknown) (p : Position) (id : Option String) :
    t.refer name role file p id = t.write ⟨name, role, key, f, p, id, none⟩ := by
  unfold refer write Write.isIdle
  simp only [hk, hf, hc, if_false, Option.isSome_none, Bool.false_and, Bool.false_eq_true]
  cases t.symbols[key]? <;> rfl

private theorem declare_eq_write (t : SymbolTable) {name key f : String} {role : Role} {location : Location}
    {excerpt : Excerpt} {s : Symbol} (hk : Symbol.key? name role.category = some key)
    (hf : fileKey? location.file = some f)
    (hs : Symbol.declared name role location (some excerpt) = .ok s) :
    ∃ current, t.declare name role location excerpt =
      .ok (t.write ⟨name, role, key, f, location.span.start, none, some s⟩, current) := by
  have hreferences : s.references = ∅ := (Symbol.declared_places hs).2.2.2
  unfold declare write Write.isIdle
  simp only [hk, hf, hs, Option.isSome_some, Bool.true_and]
  cases hc : t.symbols[key]? with
  | none =>
    have hinherit : t.inherit key s = s := by simp [inherit, referencesOf, hc, ← hreferences]
    simp [declarationOf, hc, hinherit, bind, Except.bind, pure, Except.pure]
  | some current =>
    by_cases hd : current.declaration.isSome = true
    · simp [declarationOf, hc, hd]
    · simp [declarationOf, hc, hd, inherit, referencesOf, bind, Except.bind, pure, Except.pure]

namespace Operation

def subject? : Operation → Option (String × Role)
  | .declare name role _ _ => some (name, role)
  | .refer name role _ _ _ => some (name, role)
  | _ => none

def key? (op : Operation) : Option String :=
  op.subject?.bind fun (name, role) => Symbol.key? name role.category

def declares : Operation → Bool
  | .declare .. => true
  | _ => false

def packId? : Operation → Option String
  | .refer _ _ _ _ packId => givenId? packId
  | _ => none

def IsWrite : Operation → Prop
  | .declare name role _ excerpt =>
    name ≠ "" ∧ role.category.profile.cached = true ∧ excerpt.HasStart
  | .refer name role _ _ _ => name ≠ "" ∧ role.category.profile.cached = true
  | _ => False

def write? : Operation → Option Write
  | .declare name role location excerpt => do
    let key ← Symbol.key? name role.category
    let file ← fileKey? location.file
    let s ← (Symbol.declared name role location (some excerpt)).toOption
    return ⟨name, role, key, file, location.span.start, none, some s⟩
  | .refer name role file p packId => do
    let key ← Symbol.key? name role.category
    let file ← fileKey? file
    return ⟨name, role, key, file, p, packId, none⟩
  | _ => none

private theorem write?_eq_some {op : Operation} {w : Write} (h : op.write? = some w) :
    op.subject? = some (w.name, w.role) ∧ op.key? = some w.key ∧
      op.declares = w.declared.isSome ∧ op.packId? = givenId? w.packId := by
  cases op with
  | declare name role location excerpt =>
    obtain ⟨key, hk, h⟩ := Option.bind_eq_some_iff.1 h
    obtain ⟨file, -, h⟩ := Option.bind_eq_some_iff.1 h
    obtain ⟨s, -, h⟩ := Option.bind_eq_some_iff.1 h
    cases h
    exact ⟨rfl, hk, rfl, rfl⟩
  | refer name role file p packId =>
    obtain ⟨key, hk, h⟩ := Option.bind_eq_some_iff.1 h
    obtain ⟨file, -, h⟩ := Option.bind_eq_some_iff.1 h
    cases h
    exact ⟨rfl, hk, rfl, rfl⟩
  | clearFile file => cases h
  | clear => cases h

private theorem perform_eq (t : SymbolTable) {op : Operation} (h : op.IsWrite) :
    ∃ s, t.perform op = (op.write?.elim t t.write, .ok s) := by
  cases op with
  | declare name role location excerpt =>
    obtain ⟨hname, hcached, hstart⟩ := h
    obtain ⟨s, hs⟩ := Symbol.declared_ok name location hcached hstart
    have hkey : Symbol.key? name role.category = some (name ++ role.category.id) := if_neg hname
    rw [perform_declare]
    simp only [write?, hkey, hs]
    cases hf : fileKey? location.file with
    | none => exact ⟨none, by simp [SymbolTable.declare, hf]⟩
    | some f =>
      obtain ⟨current, hcurrent⟩ := t.declare_eq_write hkey hf hs
      rw [hcurrent]
      exact ⟨current, rfl⟩
  | refer name role file p packId =>
    obtain ⟨hname, hcached⟩ := h
    have hkey : Symbol.key? name role.category = some (name ++ role.category.id) := if_neg hname
    have hunknown : role.category ≠ .unknown := by
      intro hc
      rw [hc] at hcached
      cases hcached
    rw [perform_refer]
    simp only [write?, hkey]
    cases hf : fileKey? file with
    | none => exact ⟨none, by simp [SymbolTable.refer, hf]⟩
    | some f => exact ⟨none, by rw [t.refer_eq_write hkey hf hunknown]; rfl⟩
  | clearFile file => exact h.elim
  | clear => exact h.elim

end Operation

/-- Declarations and references that do not contradict each other: about one key they name the same
symbol with the same values, declare it at most once, and give it at most one pack id. -/
structure Agreeing (ops : List Operation) : Prop where
  writes : ∀ op ∈ ops, op.IsWrite
  subjects : ∀ a ∈ ops, ∀ b ∈ ops, a.key? = b.key? → ∀ name role name' role',
    a.subject? = some (name, role) → b.subject? = some (name', role') →
      name = name' ∧ role.category = role'.category ∧ role.extra = role'.extra
  declaredOnce : ops.Pairwise fun a b => a.key? = b.key? → ¬(a.declares = true ∧ b.declares = true)
  oneId : ∀ a ∈ ops, ∀ b ∈ ops, a.key? = b.key? → ∀ id id',
    a.packId? = some id → b.packId? = some id' → id = id'

private theorem placeholder_congr {name : String} {role role' : Role} (hc : role.category = role'.category)
    (he : role.extra = role'.extra) :
    Symbol.placeholder name role = Symbol.placeholder name role' := by
  unfold Symbol.placeholder
  rw [hc, he]

namespace Agreeing
variable {ops : List Operation}

/-- Two different operations of the list write what does not contradict. -/
theorem compatible (h : Agreeing ops) {a b : Operation} (ha : a ∈ ops) (hb : b ∈ ops) (hne : a ≠ b)
    {v w : Write} (hv : a.write? = some v) (hw : b.write? = some w) : v.Compatible w := by
  obtain ⟨hsv, hkv, hdv, hiv⟩ := Operation.write?_eq_some hv
  obtain ⟨hsw, hkw, hdw, hiw⟩ := Operation.write?_eq_some hw
  have hkey (hk : v.key = w.key) : a.key? = b.key? := by rw [hkv, hkw, hk]
  refine ⟨fun hk => ?_, fun hk => ?_, fun hk id id' hi hi' => ?_⟩
  · obtain ⟨hname, hcategory, hextra⟩ := h.subjects a ha b hb (hkey hk) _ _ _ _ hsv hsw
    rw [hname]
    exact placeholder_congr hcategory hextra
  · have : Symm fun a b : Operation =>
        a.key? = b.key? → ¬(a.declares = true ∧ b.declares = true) :=
      ⟨fun a b h hk hd => h hk.symm hd.symm⟩
    have hd := h.declaredOnce.forall ha hb hne (hkey hk)
    rw [hdv, hdw] at hd
    cases hv : v.declared with
    | none => exact .inl rfl
    | some s => exact .inr (by simpa [hv] using hd)
  · exact h.oneId a ha b hb (hkey hk) id id' (hiv.trans hi) (hiw.trans hi')

/-- Two operations of the list commute in every state. -/
theorem perform_comm (h : Agreeing ops) {a b : Operation} (ha : a ∈ ops) (hb : b ∈ ops)
    (t : SymbolTable) : ((t.perform a).1.perform b).1 = ((t.perform b).1.perform a).1 := by
  by_cases hne : a = b
  · rw [hne]
  · have hperform (t : SymbolTable) {op : Operation} (hop : op ∈ ops) :
        (t.perform op).1 = op.write?.elim t t.write := by
      obtain ⟨s, hs⟩ := Operation.perform_eq t (h.writes op hop)
      rw [hs]
    simp only [hperform _ ha, hperform _ hb]
    cases hv : a.write? with
    | none => rfl
    | some v =>
      cases hw : b.write? with
      | none => rfl
      | some w =>
        exact t.write_comm (h.compatible ha hb hne hv hw) (h.compatible hb ha (Ne.symm hne) hw hv)

end Agreeing

/-- Declarations and references that do not contradict each other make the same table in any order, and
none of them fails. -/
theorem run_perm {ops ops' : List Operation} (h : Agreeing ops) (hp : ops.Perm ops') :
    run {} ops = run {} ops' ∧
      ∀ op ∈ ops, ∀ t : SymbolTable, ∃ s, (t.perform op).2 = .ok s := by
  refine ⟨hp.foldl_eq' (fun a ha b hb t => h.perform_comm ha hb t) {}, fun op hop t => ?_⟩
  obtain ⟨s, hs⟩ := Operation.perform_eq t (h.writes op hop)
  exact ⟨s, by rw [hs]⟩

/-- A reference with a pack id, a declaration with an info comment, and references from the same and from
another file, backwards. -/
theorem run_perm_coins :
    let ops : List Operation :=
      [.refer "coins" (.reference .obj) "b.rs2" ⟨4, 2⟩ (some "995"),
        .declare "coins" (.declaration .obj) (.at "a.obj" 1 1 0)
          ⟨["// desc: money".toList, "[coins]".toList], 1⟩,
        .refer "gem" (.reference .obj) "a.obj" ⟨2, 6⟩ none,
        .refer "coins" (.reference .obj) "a.obj" ⟨2, 0⟩ none]
    Agreeing ops ∧ ops.Perm ops.reverse ∧ run {} ops = run {} ops.reverse := by
  intro ops
  have hagreeing : Agreeing ops := by
    refine ⟨?_, ?_, ?_, ?_⟩
    · simp [ops, Operation.IsWrite, Excerpt.HasStart, Role.reference, Role.declaration]
      decide
    · have hne : "coins" ++ Category.id .obj ≠ "gem" ++ Category.id .obj := by decide
      simp [ops, Operation.subject?, Operation.key?, Symbol.key?, Role.reference, Role.declaration,
        hne, hne.symm]
    · simp [ops, Operation.declares]
    · simp [ops, Operation.packId?, givenId?]
  have hperm : ops.Perm ops.reverse := (List.reverse_perm ops).symm
  exact ⟨hagreeing, hperm, (run_perm hagreeing hperm).1⟩

end ScriptIndex.SymbolTable
