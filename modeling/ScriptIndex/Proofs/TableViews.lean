import ScriptIndex.SymbolTable

/-! The symbol table seen through its two maps. Every write is described by the symbol it leaves under
a key and by the keys it leaves with a file; later modules cite these descriptions only. -/
namespace ScriptIndex

/-- A step that may fail succeeds exactly if its first half and then its second half do. -/
theorem bind_eq_ok {ε α β : Type} {x : Except ε α} {f : α → Except ε β} {b : β} :
    (x >>= f) = .ok b ↔ ∃ a, x = .ok a ∧ f a = .ok b := by
  cases x <;> simp [bind, Except.bind]

namespace Symbol

def declaredIn (s : Symbol) (file : String) : Bool :=
  s.declaration.any fun l => fileKey? l.file == some file

def without (file : String) (s : Symbol) : Option Symbol :=
  if (s.references.erase file).isEmpty then none
  else some { s with
    references := s.references.erase file
    declaration := if s.declaredIn file then none else s.declaration }

theorem declaredIn_iff (s : Symbol) (file : String) :
    s.declaredIn file = true ↔ ∃ l, s.declaration = some l ∧ fileKey? l.file = some file := by
  cases h : s.declaration <;> simp [declaredIn, h]

/-- What reading the lines around a declaration and describing a symbol never touch. -/
structure SamePlaces (a b : Symbol) : Prop where
  category : b.category = a.category
  packId : b.packId = a.packId
  declaration : b.declaration = a.declaration
  references : b.references = a.references

private theorem SamePlaces.trans {a b c : Symbol} (h : SamePlaces a b) (k : SamePlaces b c) :
    SamePlaces a c :=
  ⟨k.category.trans h.category, k.packId.trans h.packId, k.declaration.trans h.declaration,
    k.references.trans h.references⟩

/-- The lines around a declaration fill in what they tell. -/
theorem readExcerpt_eq_ok {e : Excerpt} {s t : Symbol} (h : readExcerpt e s = .ok t) :
    ∃ info signature block, t = { s with info := info, signature := signature, block := block } := by
  unfold readExcerpt at h
  obtain ⟨info, _, h⟩ := bind_eq_ok.1 h
  split at h
  · cases h
    exact ⟨info, s.signature, s.block, rfl⟩
  · dsimp only at h
    split at h
    all_goals
      obtain ⟨signature, _, h⟩ := bind_eq_ok.1 h
      split at h
      all_goals
        obtain ⟨block, _, h⟩ := bind_eq_ok.1 h
        cases h
        exact ⟨info, signature, block, rfl⟩

theorem readExcerpt_samePlaces {e : Excerpt} {s t : Symbol} (h : readExcerpt e s = .ok t) :
    SamePlaces s t := by
  obtain ⟨info, signature, block, rfl⟩ := readExcerpt_eq_ok h
  exact ⟨rfl, rfl, rfl, rfl⟩

theorem describeReference_eq (s : Symbol) :
    ∃ info value, s.describeReference = { s with info := info, value := value } := by
  unfold describeReference
  split
  · unfold describeCategory
    split
    · split
      · exact ⟨s.info, _, rfl⟩
      · exact ⟨s.info, s.value, rfl⟩
    · exact ⟨s.info, s.value, rfl⟩
  all_goals exact ⟨_, s.value, rfl⟩

private theorem describeReference_samePlaces (s : Symbol) : SamePlaces s s.describeReference := by
  obtain ⟨info, value, h⟩ := describeReference_eq s
  rw [h]
  exact ⟨rfl, rfl, rfl, rfl⟩

theorem describeCoordinate_eq_ok {s t : Symbol} (h : s.describeCoordinate = .ok t) :
    ∃ value, t = { s with value := value } := by
  unfold describeCoordinate at h
  obtain ⟨squareX, _, h⟩ := bind_eq_ok.1 h
  obtain ⟨tileX, _, h⟩ := bind_eq_ok.1 h
  obtain ⟨squareZ, _, h⟩ := bind_eq_ok.1 h
  obtain ⟨tileZ, _, h⟩ := bind_eq_ok.1 h
  cases h
  exact ⟨_, rfl⟩

theorem describeTrigger_eq_ok {s t : Symbol} (h : s.describeTrigger = .ok t) :
    ∃ info, t = { s with info := info } := by
  unfold describeTrigger at h
  split at h
  · cases h
    exact ⟨s.info, rfl⟩
  · split at h
    · cases h
      exact ⟨s.info, rfl⟩
    · cases h
      exact ⟨_, rfl⟩
    · cases h

private theorem describe_samePlaces {s t : Symbol} (h : s.describe = .ok t) : SamePlaces s t := by
  unfold describe at h
  split at h
  · obtain ⟨value, rfl⟩ := describeCoordinate_eq_ok h
    exact ⟨rfl, rfl, rfl, rfl⟩
  · obtain ⟨info, rfl⟩ := describeTrigger_eq_ok h
    exact ⟨rfl, rfl, rfl, rfl⟩
  · cases h; exact ⟨rfl, rfl, rfl, rfl⟩
  · cases h; exact ⟨rfl, rfl, rfl, rfl⟩
  · cases h
    unfold describeConfigKey
    split <;> exact ⟨rfl, rfl, rfl, rfl⟩
  · cases h; exact ⟨rfl, rfl, rfl, rfl⟩
  · cases h
    unfold describeRow
    split <;> exact ⟨rfl, rfl, rfl, rfl⟩
  · cases h
    unfold describeColumn
    dsimp only
    split <;> exact ⟨rfl, rfl, rfl, rfl⟩
  · cases h
    exact describeReference_samePlaces s

/-- A symbol built from a declaration stands where it was declared, and nothing refers to it yet. -/
theorem declared_places {name : String} {role : Role} {location : Location}
    {excerpt : Option Excerpt} {s : Symbol} (h : declared name role location excerpt = .ok s) :
    s.category = role.category ∧ s.packId = none ∧ s.declaration = some location
      ∧ s.references = ∅ := by
  unfold declared at h
  dsimp only at h
  split at h
  · obtain ⟨read, hr, h⟩ := bind_eq_ok.1 h
    have hs := (readExcerpt_samePlaces hr).trans (describe_samePlaces h)
    exact ⟨hs.category, hs.packId, hs.declaration, hs.references⟩
  · obtain ⟨read, hr, h⟩ := bind_eq_ok.1 h
    cases hr
    have hs := describe_samePlaces h
    exact ⟨hs.category, hs.packId, hs.declaration, hs.references⟩

/-- A placeholder is declared nowhere, and nothing refers to it yet. -/
theorem placeholder_places (name : String) (role : Role) :
    (placeholder name role).category = role.category ∧ (placeholder name role).packId = none ∧
      (placeholder name role).declaration = none ∧ (placeholder name role).references = ∅ := by
  unfold placeholder
  split
  · have h := describeReference_samePlaces { bare name role.category with extra := role.extra }
    exact ⟨h.category, h.packId, h.declaration, h.references⟩
  · exact ⟨rfl, rfl, rfl, rfl⟩

end Symbol

namespace SymbolTable
open Std

def record (t : SymbolTable) (key file : String) (s : Symbol) (p : Position)
    (packId : Option String) : SymbolTable :=
  let s := { s with
    references := addPosition file p s.references
    packId := (givenId? packId).or s.packId }
  { symbols := t.symbols.insert key s, files := t.files.alter file (addReferenced key) }

def refer (t : SymbolTable) (name : String) (role : Role) (file : String) (p : Position)
    (packId : Option String) : SymbolTable :=
  match Symbol.key? name role.category, fileKey? file with
  | some key, some file =>
    match t.symbols[key]? with
    | some s => t.record key file s p packId
    | none =>
      if role.category = .unknown then t
      else t.record key file (Symbol.placeholder name role) p packId
  | _, _ => t

def recordDeclaration (t : SymbolTable) (key file : String) (s : Symbol) (p : Position) :
    SymbolTable :=
  { t with files := t.files.alter file (addDeclared key) }.record key file s p none

def declare (t : SymbolTable) (name : String) (role : Role) (location : Location)
    (excerpt : Excerpt) : Except BuildError (SymbolTable × Option Symbol) :=
  match Symbol.key? name role.category, fileKey? location.file with
  | some key, some file =>
    match t.symbols[key]? with
    | some current =>
      if current.declaration.isSome then .ok (t, some current)
      else do
        let s ← Symbol.declared name role location (some excerpt)
        let s := { s with
          references := current.references, packId := (givenId? current.packId).or s.packId }
        let t := t.recordDeclaration key file s location.span.start
        return (t, t.symbols[key]?)
    | none => do
      let s ← Symbol.declared name role location (some excerpt)
      let t := t.recordDeclaration key file s location.span.start
      return (t, t.symbols[key]?)
  | _, _ => .ok (t, none)

section
variable {α β : Type} (t : SymbolTable)

theorem edit_pure (a : α) : t.edit (pure a) = (.ok a, t) :=
  rfl

private theorem edit_get : t.edit get = (.ok t, t) :=
  rfl

private theorem edit_build (x : Except BuildError α) : t.edit (liftM x) = (x, t) := by
  cases x <;> rfl

/-- Steps go on with what the first ones answer, on the table that they leave behind, or are broken off. -/
theorem edit_bind (x : Edit α) (f : α → Edit β) :
    t.edit (x >>= f) = match t.edit x with
      | (.ok a, u) => u.edit (f a)
      | (.error e, u) => (.error e, u) := by
  unfold edit
  rw [ExceptT.run_bind]
  simp only [StateT.run_bind]
  generalize StateT.run (ExceptT.run x) t = r
  obtain ⟨a | a, u⟩ := r <;> rfl

private theorem edit_onSymbol (key : String) (change : Symbol → Symbol) :
    t.edit (Edit.onSymbol key change) =
      (.ok (), { t with symbols := t.symbols.alter key (Option.map change) }) :=
  rfl

theorem edit_store (key : String) (s : Symbol) :
    t.edit (Edit.store key s) = (.ok (), { t with symbols := t.symbols.insert key s }) :=
  rfl

theorem edit_onFile (file : String) (change : Option FileKeys → Option FileKeys) :
    t.edit (Edit.onFile file change) = (.ok (), { t with files := t.files.alter file change }) :=
  rfl

end

private theorem givenId?_cases (packId : Option String) :
    givenId? packId = none ∨ (givenId? packId).isSome = true ∧ givenId? packId = packId := by
  unfold givenId?
  cases packId with
  | none => exact .inl rfl
  | some id => by_cases h : id = "" <;> simp [Option.filter, h]

private theorem alter_insert (key : String) (s : Symbol) (m : ExtTreeMap String Symbol)
    (change : Symbol → Symbol) :
    (m.insert key s).alter key (Option.map change) = m.insert key (change s) := by
  apply ExtTreeMap.ext_getElem?
  intro k
  rw [ExtTreeMap.getElem?_alter, ExtTreeMap.getElem?_insert, ExtTreeMap.getElem?_insert]
  by_cases hk : key = k
  · subst hk
    simp
  · simp [hk, ExtTreeMap.getElem?_insert]

private theorem insert_of_getElem? {key : String} {s : Symbol} {m : ExtTreeMap String Symbol}
    (h : m[key]? = some s) : m.insert key s = m := by
  apply ExtTreeMap.ext_getElem?
  intro k
  rw [ExtTreeMap.getElem?_insert]
  by_cases hk : key = k
  · subst hk
    simp [h]
  · simp [hk]

private theorem insert_insert (key : String) (s s' : Symbol) (m : ExtTreeMap String Symbol) :
    (m.insert key s).insert key s' = m.insert key s' := by
  apply ExtTreeMap.ext_getElem?
  intro k
  simp only [ExtTreeMap.getElem?_insert]
  split <;> rfl

/-- Under a key that holds a symbol the steps record the position and nothing else. -/
private theorem edit_record {t : SymbolTable} {key : String} {s : Symbol}
    (hs : t.symbols[key]? = some s) (file : String) (p : Position) (packId : Option String) :
    t.edit (Edit.record key file p packId) = (.ok (), t.record key file s p packId) := by
  have hinsert : t.symbols = t.symbols.insert key s := (insert_of_getElem? hs).symm
  unfold Edit.record
  simp only [edit_bind, edit_onSymbol, edit_onFile]
  rw [hinsert, alter_insert]
  rcases givenId?_cases packId with hid | ⟨hsome, hid⟩
  · simp [hid, record, edit_pure]
  · have hwrite := alter_insert key { s with references := addPosition file p s.references } t.symbols
      fun s => { s with packId := packId }
    rw [if_pos hsome, edit_onSymbol, hwrite]
    rw [hid] at hsome
    simp only [record, hid, Option.or_of_isSome hsome]

private theorem edit_referUnder (t : SymbolTable) (key name : String) (role : Role) (file : String)
    (p : Position) (packId : Option String) :
    t.edit (Edit.referUnder key name role file p packId) = (.ok (),
      match t.symbols[key]? with
      | some s => t.record key file s p packId
      | none =>
        if role.category = .unknown then t
        else t.record key file (Symbol.placeholder name role) p packId) := by
  unfold Edit.referUnder
  simp only [edit_bind, edit_get]
  cases hs : t.symbols[key]? with
  | some s => exact edit_record hs file p packId
  | none =>
    by_cases hc : role.category = .unknown
    · simp [hc, edit_pure]
    · have hplaceholder : (t.symbols.insert key (Symbol.placeholder name role))[key]? =
          some (Symbol.placeholder name role) := ExtTreeMap.getElem?_insert_self
      have hstored := edit_record (t := { t with
          symbols := t.symbols.insert key (Symbol.placeholder name role) }) hplaceholder file p packId
      simp only [hc, if_false, edit_bind, edit_store, hstored]
      simp only [record, insert_insert]

/-- The steps of a reference make the table with the reference, and are never broken off. -/
theorem edit_refer (t : SymbolTable) (name : String) (role : Role) (file : String) (p : Position)
    (packId : Option String) :
    t.edit (Edit.refer name role file p packId) = (.ok (), t.refer name role file p packId) := by
  unfold Edit.refer refer
  cases Symbol.key? name role.category with
  | none => rfl
  | some key =>
    cases fileKey? file with
    | none => rfl
    | some file => exact edit_referUnder t key name role file p packId

/-- The steps of a declaration make the table with the declaration. Where no symbol can be built they are
broken off, and the table that they leave behind is the one that they found. -/
theorem edit_declare (t : SymbolTable) (name : String) (role : Role) (location : Location)
    (excerpt : Excerpt) :
    t.edit (Edit.declare name role location excerpt) =
      match t.declare name role location excerpt with
      | .ok (u, s) => (.ok s, u)
      | .error e => (.error e, t) := by
  -- Behind a symbol that is built, the steps store it and record its position.
  have hstored (key file : String) (s : Symbol) :
      t.edit (do
        Edit.onFile file (addDeclared key)
        Edit.store key s
        Edit.referUnder key name role file location.span.start none
        return (← get).symbols[key]?) =
      (.ok ((t.recordDeclaration key file s location.span.start).symbols[key]?),
        t.recordDeclaration key file s location.span.start) := by
    simp only [edit_bind, edit_onFile, edit_store, edit_referUnder, edit_get, edit_pure,
      ExtTreeMap.getElem?_insert_self]
    simp only [record, recordDeclaration, insert_insert]
  unfold Edit.declare declare
  cases Symbol.key? name role.category with
  | none => rfl
  | some key =>
    cases fileKey? location.file with
    | none => rfl
    | some file =>
      dsimp only
      rw [edit_bind, edit_get]
      dsimp only
      cases hs : t.symbols[key]? with
      | none =>
        rw [Option.any_none, if_neg (by simp), edit_bind, edit_build]
        cases Symbol.declared name role location (some excerpt) with
        | error e => rfl
        | ok s => exact hstored key file s
      | some current =>
        by_cases hd : current.declaration.isSome = true
        · simp [hd, edit_pure]
        · rw [Option.any_some, if_neg hd, edit_bind, edit_build]
          dsimp only
          rw [if_neg hd]
          cases Symbol.declared name role location (some excerpt) with
          | error e => rfl
          | ok s => exact hstored key file _

/-- The table's own account of what a file declares. -/
def Declares (t : SymbolTable) (file key : String) : Prop :=
  ∃ entry, t.files[file]? = some entry ∧ key ∈ entry.declared

def Refers (t : SymbolTable) (file key : String) : Prop :=
  ∃ entry, t.files[file]? = some entry ∧ key ∈ entry.referenced

def referencesOf (t : SymbolTable) (key : String) : References :=
  ((t.symbols[key]?).map Symbol.references).getD ∅

def declarationOf (t : SymbolTable) (key : String) : Option Location :=
  (t.symbols[key]?).bind Symbol.declaration

theorem mem_referencesOf {t : SymbolTable} {file key : String} :
    file ∈ t.referencesOf key ↔ ∃ s, t.symbols[key]? = some s ∧ file ∈ s.references := by
  cases h : t.symbols[key]? <;> simp [referencesOf, h]

theorem referencesOf_of_some {t : SymbolTable} {key : String} {s : Symbol}
    (h : t.symbols[key]? = some s) : t.referencesOf key = s.references := by
  simp [referencesOf, h]

theorem declarationOf_of_some {t : SymbolTable} {key : String} {s : Symbol}
    (h : t.symbols[key]? = some s) : t.declarationOf key = s.declaration := by
  simp [declarationOf, h]

theorem getElem?_addPosition (file : String) (p : Position) (r : References) (f : String) :
    (addPosition file p r)[f]? = if file = f then some ((r[f]?.getD ∅).insert p) else r[f]? := by
  unfold addPosition
  rw [ExtTreeMap.getElem?_alter]
  by_cases h : file = f
  · subst h; simp
  · simp [h]

theorem mem_addPosition {file : String} {p : Position} {r : References} {f : String} :
    f ∈ addPosition file p r ↔ file = f ∨ f ∈ r := by
  rw [ExtTreeMap.mem_iff_isSome_getElem?, getElem?_addPosition, ExtTreeMap.mem_iff_isSome_getElem?]
  by_cases h : file = f <;> simp [h]

theorem symbols_record (t : SymbolTable) (key file : String) (s : Symbol) (p : Position)
    (id : Option String) (k : String) :
    (t.record key file s p id).symbols[k]? =
      if key = k then
        some { s with
          references := addPosition file p s.references
          packId := (givenId? id).or s.packId }
      else t.symbols[k]? := by
  simp [record, ExtTreeMap.getElem?_insert]

theorem files_record (t : SymbolTable) (key file : String) (s : Symbol) (p : Position)
    (id : Option String) (f : String) :
    (t.record key file s p id).files[f]? =
      if file = f then addReferenced key t.files[f]? else t.files[f]? := by
  unfold record
  rw [ExtTreeMap.getElem?_alter]
  by_cases h : file = f
  · subst h; simp
  · simp [h]

theorem referencesOf_record (t : SymbolTable) (key file : String) (s : Symbol) (p : Position)
    (id : Option String) (k : String) :
    (t.record key file s p id).referencesOf k =
      if key = k then addPosition file p s.references else t.referencesOf k := by
  unfold referencesOf
  rw [symbols_record]
  split <;> rfl

theorem declarationOf_record (t : SymbolTable) (key file : String) (s : Symbol) (p : Position)
    (id : Option String) (k : String) :
    (t.record key file s p id).declarationOf k =
      if key = k then s.declaration else t.declarationOf k := by
  unfold declarationOf
  rw [symbols_record]
  split <;> rfl

theorem refers_record {t : SymbolTable} {key file : String} {s : Symbol} {p : Position}
    {id : Option String} {f k : String} :
    (t.record key file s p id).Refers f k ↔ t.Refers f k ∨ file = f ∧ key = k := by
  unfold Refers
  rw [files_record]
  by_cases h : file = f
  · subst h
    cases hf : t.files[file]? <;> simp [addReferenced, or_comm]
  · simp [h]

theorem declares_record {t : SymbolTable} {key file : String} {s : Symbol} {p : Position}
    {id : Option String} {f k : String} :
    (t.record key file s p id).Declares f k ↔ t.Declares f k := by
  unfold Declares
  rw [files_record]
  by_cases h : file = f
  · subst h
    cases hf : t.files[file]? <;> simp [addReferenced]
  · simp [h]

theorem symbols_recordDeclaration (t : SymbolTable) (key file : String) (s : Symbol) (p : Position) :
    (t.recordDeclaration key file s p).symbols = (t.record key file s p none).symbols :=
  rfl

theorem files_recordDeclaration (t : SymbolTable) (key file : String) (s : Symbol) (p : Position)
    (f : String) :
    (t.recordDeclaration key file s p).files[f]? =
      if file = f then addReferenced key (addDeclared key t.files[f]?) else t.files[f]? := by
  unfold recordDeclaration
  rw [files_record]
  by_cases h : file = f
  · subst h; simp
  · simp [h, ExtTreeMap.getElem?_alter]

theorem refers_recordDeclaration {t : SymbolTable} {key file : String} {s : Symbol} {p : Position}
    {f k : String} :
    (t.recordDeclaration key file s p).Refers f k ↔ t.Refers f k ∨ file = f ∧ key = k := by
  unfold Refers
  rw [files_recordDeclaration]
  by_cases h : file = f
  · subst h
    cases hf : t.files[file]? <;> simp [addReferenced, addDeclared, or_comm]
  · simp [h]

theorem declares_recordDeclaration {t : SymbolTable} {key file : String} {s : Symbol}
    {p : Position} {f k : String} :
    (t.recordDeclaration key file s p).Declares f k ↔ t.Declares f k ∨ file = f ∧ key = k := by
  unfold Declares
  rw [files_recordDeclaration]
  by_cases h : file = f
  · subst h
    cases hf : t.files[file]? <;> simp [addReferenced, addDeclared, or_comm]
  · simp [h]

def inherit (t : SymbolTable) (key : String) (s : Symbol) : Symbol :=
  { s with
    references := t.referencesOf key
    packId := (((t.symbols[key]?).bind fun c => givenId? c.packId)).or s.packId }

/-- A reference does nothing, or it records a position of the symbol under its key. -/
theorem refer_cases (t : SymbolTable) (name : String) (role : Role) (file : String) (p : Position)
    (id : Option String) :
    t.refer name role file p id = t ∨
      ∃ key f s, Symbol.key? name role.category = some key ∧ fileKey? file = some f ∧
        (t.symbols[key]? = some s ∨ t.symbols[key]? = none ∧ role.category ≠ .unknown
          ∧ s = Symbol.placeholder name role) ∧
        t.refer name role file p id = t.record key f s p id := by
  unfold refer
  split
  · rename_i key f hk hf
    split
    · rename_i s hs
      exact .inr ⟨key, f, s, hk, hf, .inl hs, rfl⟩
    · rename_i hs
      split
      · exact .inl rfl
      · rename_i hc
        exact .inr ⟨key, f, _, hk, hf, .inr ⟨hs, hc, rfl⟩, rfl⟩
  · exact .inl rfl

/-- The symbol that a reference records stands where the symbol under its key stood. -/
theorem places_of_refer {t : SymbolTable} {key name : String} {role : Role} {s : Symbol}
    (h : t.symbols[key]? = some s ∨ t.symbols[key]? = none ∧ role.category ≠ .unknown
      ∧ s = Symbol.placeholder name role) :
    s.references = t.referencesOf key ∧ s.declaration = t.declarationOf key := by
  rcases h with hs | ⟨hs, -, rfl⟩
  · exact ⟨(referencesOf_of_some hs).symm, (declarationOf_of_some hs).symm⟩
  · obtain ⟨-, -, hd, hr⟩ := Symbol.placeholder_places name role
    refine ⟨?_, ?_⟩
    · simp [hr, referencesOf, hs]
    · simp [hd, declarationOf, hs]

/-- A declaration finds no key, or finds its key declared, or is built and recorded. -/
theorem declare_cases {t : SymbolTable} {name : String} {role : Role} {location : Location}
    {excerpt : Excerpt} {r : SymbolTable × Option Symbol}
    (h : t.declare name role location excerpt = .ok r) :
    ((Symbol.key? name role.category = none ∨ fileKey? location.file = none) ∧ r = (t, none)) ∨
    (∃ key current, Symbol.key? name role.category = some key ∧ t.symbols[key]? = some current ∧
      current.declaration.isSome ∧ r = (t, some current)) ∨
    ∃ key file s, Symbol.key? name role.category = some key ∧ fileKey? location.file = some file ∧
      t.declarationOf key = none ∧ Symbol.declared name role location (some excerpt) = .ok s ∧
      r.1 = t.recordDeclaration key file (t.inherit key s) location.span.start ∧
      r.2 = r.1.symbols[key]? := by
  unfold declare at h
  split at h
  · rename_i key file hk hf
    split at h
    · rename_i current hc
      split at h
      · rename_i hd
        cases h
        exact .inr (.inl ⟨key, current, hk, hc, hd, rfl⟩)
      · rename_i hd
        obtain ⟨s, hs, h⟩ := bind_eq_ok.1 h
        cases h
        have hn : t.declarationOf key = none := by
          rw [declarationOf_of_some hc]
          simpa using hd
        refine .inr (.inr ⟨key, file, s, hk, hf, hn, hs, ?_, rfl⟩)
        simp [inherit, referencesOf_of_some hc, hc]
    · rename_i hc
      obtain ⟨s, hs, h⟩ := bind_eq_ok.1 h
      cases h
      have hn : t.declarationOf key = none := by simp [declarationOf, hc]
      refine .inr (.inr ⟨key, file, s, hk, hf, hn, hs, ?_, rfl⟩)
      have hr := (Symbol.declared_places hs).2.2.2
      simp [inherit, referencesOf, hc, ← hr]
  · rename_i hnone
    cases h
    refine .inl ⟨?_, rfl⟩
    cases hk : Symbol.key? name role.category with
    | none => exact .inl rfl
    | some key =>
      cases hf : fileKey? location.file with
      | none => exact .inr rfl
      | some file => exact (hnone key file hk hf).elim

/-- A declaration fails only if its symbol cannot be built. -/
theorem declare_error {t : SymbolTable} {name : String} {role : Role} {location : Location}
    {excerpt : Excerpt} {e : BuildError} (h : t.declare name role location excerpt = .error e) :
    Symbol.declared name role location (some excerpt) = .error e := by
  cases hs : Symbol.declared name role location (some excerpt) with
  | error e' =>
    unfold declare at h
    simp only [hs, bind, Except.bind] at h
    split at h
    · split at h
      · split at h <;> cases h
        rfl
      · cases h
        rfl
    · cases h
  | ok s =>
    unfold declare at h
    simp only [hs, bind, Except.bind] at h
    split at h
    · split at h
      · split at h <;> cases h
      · cases h
    · cases h

private theorem getElem?_alterAll (change : Option Symbol → Option Symbol) (keys : List String)
    (symbols : ExtTreeMap String Symbol) (hk : keys.Nodup) (k : String) :
    (alterAll change keys symbols)[k]? =
      if k ∈ keys then change symbols[k]? else symbols[k]? := by
  induction keys generalizing symbols with
  | nil => simp [alterAll]
  | cons key keys ih =>
    obtain ⟨hn, hk⟩ := List.nodup_cons.1 hk
    have hs := ih (symbols.alter key change) hk
    simp only [alterAll, List.foldl_cons] at hs ⊢
    rw [hs, ExtTreeMap.getElem?_alter]
    by_cases he : key = k
    · subst he
      simp [hn]
    · simp [he, Ne.symm he]

private theorem nodup_toList (keys : ExtTreeSet String) : keys.toList.Nodup :=
  keys.distinct_toList.imp fun h he => h (by simp [he])

/-- Taking a file out changes the symbols it refers to, then those it declares. -/
theorem symbols_clearFile {t : SymbolTable} {file f : String} {entry : FileKeys}
    (hf : fileKey? file = some f) (he : t.files[f]? = some entry) (k : String) :
    (t.clearFile file).symbols[k]? =
      let s := if k ∈ entry.referenced then dropReferences f t.symbols[k]? else t.symbols[k]?
      if k ∈ entry.declared then dropDeclaration s else s := by
  unfold clearFile
  simp only [hf, he]
  rw [getElem?_alterAll _ _ _ (nodup_toList _), getElem?_alterAll _ _ _ (nodup_toList _)]
  simp

theorem files_clearFile {t : SymbolTable} {file f : String} (hf : fileKey? file = some f) (g : String) :
    (t.clearFile file).files[g]? = if f = g then none else t.files[g]? := by
  unfold clearFile
  simp only [hf]
  cases he : t.files[f]? with
  | none =>
    by_cases h : f = g
    · subst h; simpa using he
    · simp [h]
  | some entry => simp [ExtTreeMap.getElem?_erase]

theorem clearFile_of_no_key {t : SymbolTable} {file : String} (hf : fileKey? file = none) :
    t.clearFile file = t := by
  simp [clearFile, hf]

end SymbolTable

end ScriptIndex
