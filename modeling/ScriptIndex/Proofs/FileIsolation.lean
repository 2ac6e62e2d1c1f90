import ScriptIndex.Proofs.WorkspaceRuns

/-! Files do not disturb each other. Indexing a file anew or taking it out leaves everything as it was
that another file contributed: its positions, its declarations, its keys and what holds on its lines. -/
namespace ScriptIndex

/-- What a file says of a symbol that is declared there: all but the references and the pack id, which
any file may add to. -/
def Symbol.saidIn (file : String) (s : Symbol) : Option Symbol :=
  if s.declaredIn file then some { s with references := ∅, packId := none } else none

private theorem Symbol.saidIn_eq_none {file : String} {s : Symbol}
    (h : ∀ l, s.declaration = some l → fileKey? l.file ≠ some file) : s.saidIn file = none := by
  unfold saidIn
  rw [if_neg]
  intro hd
  obtain ⟨l, hl, hf⟩ := (s.declaredIn_iff file).1 hd
  exact h l hl hf

/-- Taking a file out leaves what another file says of a symbol. -/
private theorem Symbol.saidIn_without {f g : String} {s : Symbol} (hfg : f ≠ g)
    (he : (s.references.erase f).isEmpty → s.declaration = none ∨ s.declaredIn f = true) :
    (s.without f).bind (saidIn g) = s.saidIn g := by
  unfold without
  by_cases hd : s.declaredIn f = true
  · obtain ⟨l, hl, hlf⟩ := (s.declaredIn_iff f).1 hd
    have hs : s.saidIn g = none := by
      apply saidIn_eq_none
      intro l' hl'
      cases hl.symm.trans hl'
      simpa [hlf] using hfg
    rw [hs]
    split
    · rfl
    · exact saidIn_eq_none (by simp)
  · split
    · rename_i hem
      have hn : s.declaration = none := (he hem).resolve_right hd
      rw [saidIn_eq_none (by simp [hn])]
      rfl
    · rfl

namespace SymbolTable
open Std

def declaredFrom? (t : SymbolTable) (file key : String) : Option Symbol :=
  (t.symbols[key]?).bind (Symbol.saidIn file)

structure SameFrom (file : String) (t u : SymbolTable) : Prop where
  positions : ∀ key : String, (u.referencesOf key)[file]? = (t.referencesOf key)[file]?
  declared : ∀ key : String, u.declaredFrom? file key = t.declaredFrom? file key
  keys : u.files[file]? = t.files[file]?

namespace SameFrom
variable {g : String} {t u v : SymbolTable}

private theorem refl (t : SymbolTable) : SameFrom g t t :=
  ⟨fun _ => rfl, fun _ => rfl, rfl⟩

private theorem trans (h : SameFrom g t u) (k : SameFrom g u v) : SameFrom g t v where
  positions key := (k.positions key).trans (h.positions key)
  declared key := (k.declared key).trans (h.declared key)
  keys := k.keys.trans h.keys

/-- A symbol that takes over the references of its key and says of `g` what was said there. -/
private theorem of_recorded {key file : String} {s : Symbol} {p : Position} {id : Option String}
    (hg : file ≠ g) (hs : u.symbols = (t.record key file s p id).symbols)
    (hk : u.files[g]? = t.files[g]?) (hr : s.references = t.referencesOf key)
    (hd : s.saidIn g = t.declaredFrom? g key) : SameFrom g t u where
  positions k := by
    have hrefs : u.referencesOf k = (t.record key file s p id).referencesOf k := by
      simp only [referencesOf, hs]
    rw [hrefs, referencesOf_record]
    split
    · rename_i hk
      rw [getElem?_addPosition, if_neg hg, hr, hk]
    · rfl
  declared k := by
    unfold declaredFrom? at hd ⊢
    rw [hs, symbols_record]
    split
    · rename_i hk
      rw [← hk, ← hd]
      rfl
    · rfl
  keys := hk

private theorem refer {file : String} (hg : fileKey? file ≠ some g) (name : String) (role : Role)
    (p : Position) (id : Option String) : SameFrom g t (t.refer name role file p id) := by
  rcases refer_cases t name role file p id with he | ⟨key, f, s, _, hf, hs, he⟩
  · rw [he]
    exact refl t
  · have hfg : f ≠ g := fun h => hg (h ▸ hf)
    have hfiles : (t.record key f s p id).files[g]? = t.files[g]? := by
      rw [files_record, if_neg hfg]
    rw [he]
    refine of_recorded hfg rfl hfiles (places_of_refer hs).1 ?_
    rcases hs with hs | ⟨hs, -, rfl⟩
    · simp [declaredFrom?, hs]
    · have hd := (Symbol.placeholder_places name role).2.2.1
      rw [Symbol.saidIn_eq_none (by simp [hd])]
      simp [declaredFrom?, hs]

private theorem declare {name : String} {role : Role} {l : Location} {excerpt : Excerpt}
    {r : SymbolTable × Option Symbol} (hg : fileKey? l.file ≠ some g)
    (h : t.declare name role l excerpt = .ok r) : SameFrom g t r.1 := by
  rcases declare_cases h with ⟨-, rfl⟩ | ⟨_, _, _, _, _, rfl⟩ | ⟨key, f, s, _, hf, hn, hs, he, -⟩
  · exact refl t
  · exact refl t
  · have hfg : f ≠ g := fun h => hg (h ▸ hf)
    have hfiles : (t.recordDeclaration key f (t.inherit key s) l.span.start).files[g]? =
        t.files[g]? := by
      rw [files_recordDeclaration, if_neg hfg]
    rw [he]
    refine of_recorded hfg (symbols_recordDeclaration t key f _ _) hfiles rfl ?_
    -- Neither the new declaration nor the old symbol, which had none, lies in the other file.
    have hnew : (t.inherit key s).saidIn g = none := by
      apply Symbol.saidIn_eq_none
      intro l' hl
      cases (Symbol.declared_places hs).2.2.1.symm.trans hl
      exact hg
    have hold : t.declaredFrom? g key = none := by
      unfold declaredFrom?
      cases hc : t.symbols[key]? with
      | none => rfl
      | some c =>
        rw [declarationOf_of_some hc] at hn
        exact Symbol.saidIn_eq_none (by simp [hn])
    rw [hnew, hold]

private theorem clearFile {file : String} (hg : fileKey? file ≠ some g) (h : t.Consistent) :
    SameFrom g t (t.clearFile file) := by
  cases hf : fileKey? file with
  | none =>
    rw [clearFile_of_no_key hf]
    exact refl t
  | some f =>
    have hfg : f ≠ g := fun h => hg (h ▸ hf)
    refine ⟨fun k => ?_, fun k => ?_, ?_⟩
    · rw [h.referencesOf_clearFile hf]
      simp [ExtTreeMap.getElem?_erase, hfg]
    · unfold declaredFrom?
      rw [h.symbols_clearFile hf]
      cases hs : t.symbols[k]? with
      | none => rfl
      | some s => exact Symbol.saidIn_without hfg (declaredIn_of_erase_empty h hs)
    · rw [files_clearFile hf, if_neg hfg]

end SameFrom

end SymbolTable

namespace Breakpoints

private theorem files_put {b : Breakpoints} {file g : String} (hg : fileKey? file ≠ some g) (line : Int)
    (value : String) : (b.put line value file).files[g]? = b.files[g]? := by
  unfold put
  split
  · rfl
  · rename_i f hf
    split
    · rfl
    · have hfg : f ≠ g := fun h => hg (h ▸ hf)
      simp [Std.ExtTreeMap.getElem?_alter, hfg]

private theorem files_clearFile {b : Breakpoints} {file g : String} (hg : fileKey? file ≠ some g) :
    (b.clearFile file).files[g]? = b.files[g]? := by
  unfold clearFile
  split
  · rfl
  · rename_i f hf
    have hfg : f ≠ g := fun h => hg (h ▸ hf)
    simp [Std.ExtTreeMap.getElem?_erase, hfg]

end Breakpoints

namespace Index

/-- Two indexes hold the same of what a file contributed. -/
structure SameFrom (file : String) (i j : Index) : Prop where
  symbols : i.symbols.SameFrom file j.symbols
  switches : j.switches.files[file]? = i.switches.files[file]?
  returns : j.returns.files[file]? = i.returns.files[file]?
  sections : j.sections.files[file]? = i.sections.files[file]?

namespace SameFrom
variable {g file : String} {i j k : Index}

theorem refl (i : Index) : SameFrom g i i :=
  ⟨.refl _, rfl, rfl, rfl⟩

theorem trans (h : SameFrom g i j) (l : SameFrom g j k) : SameFrom g i k where
  symbols := h.symbols.trans l.symbols
  switches := l.switches.trans h.switches
  returns := l.returns.trans h.returns
  sections := l.sections.trans h.sections

theorem clearFile (hg : fileKey? file ≠ some g) (h : i.symbols.Consistent) :
    SameFrom g i (i.clearFile file) where
  symbols := .clearFile hg h
  switches := Breakpoints.files_clearFile hg
  returns := Breakpoints.files_clearFile hg
  sections := Breakpoints.files_clearFile hg

private theorem noteLine (hg : fileKey? file ≠ some g) (number : Nat) (line : Line) :
    SameFrom g i (i.noteLine file number line) := by
  obtain ⟨switches, sections, he, hsw, hse⟩ := noteLine_cases i file number line
  rw [he]
  refine ⟨.refl _, ?_, rfl, ?_⟩
  · rcases hsw with rfl | ⟨value, rfl⟩
    · rfl
    · exact Breakpoints.files_put hg _ value
  · rcases hse with rfl | ⟨value, rfl⟩
    · rfl
    · exact Breakpoints.files_put hg _ value

private theorem writeDeclaration {lines : List Line} {number : Nat} {line : Line} {m : Match}
    (hg : fileKey? file ≠ some g) (h : i.writeDeclaration file lines number line m = .ok j) :
    SameFrom g i j := by
  obtain ⟨r, hr, rfl | ⟨key, rfl⟩⟩ := writeDeclaration_cases h
  · exact ⟨.declare hg hr, rfl, rfl, rfl⟩
  · exact ⟨.declare hg hr, rfl, Breakpoints.files_put hg _ key, rfl⟩

private theorem writeReference (hg : fileKey? file ≠ some g) (number : Nat) (m : Match) :
    SameFrom g i (i.writeReference file number m) := by
  rw [Index.writeReference_eq_refer]
  exact ⟨.refer hg m.word m.role _ _, rfl, rfl, rfl⟩

/-- Indexing a file leaves what another file contributed. -/
theorem parse [KeyOrder] {text : String} (hg : fileKey? file ≠ some g) (h : i.parse file text = .ok j) :
    SameFrom g i j := by
  refine parse_keeps (P := SameFrom g i) ?_ ?_ ?_ (refl i) h
  · intro j number line hj
    exact hj.trans (noteLine hg number line)
  · intro j k number line m _ _ hj hk
    exact hj.trans (writeDeclaration hg hk)
  · intro j number line m _ _ hj
    exact hj.trans (writeReference hg number m)

end SameFrom

end Index

namespace Workspace
attribute [local irreducible] isIndexed

/-- In every reachable workspace the two maps of the symbol table agree. -/
theorem Reachable.consistent {w : Workspace} (h : Reachable w) : w.index.symbols.Consistent :=
  Kept.reachable (P := fun i => i.symbols.Consistent)
    { empty := .empty
      scripts := fun _ _ hi => hi
      file := fun file =>
        { clearFile := fun _ hi => hi.clearFile file
          parse := fun _ _ _ hi hj => Index.parse_consistent hi hj } } h

/-- The steps for a file keep what a file with another key contributed; taking a file out rests on the
agreement of the two maps. -/
theorem keptFor_sameFrom {file g : String} (hg : fileKey? file ≠ some g) (i : Index) :
    KeptFor (fun j => j.symbols.Consistent ∧ Index.SameFrom g i j) file where
  clearFile j := by
    rintro ⟨hc, hs⟩
    exact ⟨hc.clearFile file, hs.trans (.clearFile hg hc)⟩
  parse j k text := by
    rintro ⟨hc, hs⟩ hk
    exact ⟨Index.parse_consistent hc hk, hs.trans (.parse hg hk)⟩

/-- Indexing a file anew, adding it and taking it out leave everything that a file with another key
contributed, in every state that operations lead to. -/
theorem file_operations_sameFrom [KeyOrder] [Codecs] {w : Workspace} (hw : Reachable w) (d : Disk)
    (file : String)
    (text : Option String) (g : String) (hg : fileKey? (w.fileKey file) ≠ some g) :
    Index.SameFrom g w.index (w.rebuildFile d file text).1.index ∧
      Index.SameFrom g w.index (w.createFiles d [file]).1.index ∧
      Index.SameFrom g w.index (w.clearFiles [file]).index := by
  have hk := keptFor_sameFrom hg w.index
  have hi := And.intro hw.consistent (Index.SameFrom.refl (g := g) w.index)
  refine ⟨(hk.rebuildFile file d text hi).2, ?_, (hk.clearOne file hi).2⟩
  have hc := (hk.createFile file d hi).2
  rw [createFiles_cons]
  split
  · rename_i w' he
    rw [he] at hc
    rw [createFiles_nil]
    exact hc
  · rename_i w' e he
    rw [he] at hc
    exact hc

section
attribute [local instance] Codecs.standard KeyOrder.ascending

/-- Indexing a second file keeps the object that the first one declares. -/
theorem second_file_keeps_object :
    let w := ({ root := ⟨.single, ["ws"]⟩ } : Workspace).perform {} (.parse "/ws/a.obj" "[coins]")
    w.index.symbols.symbols.keys = ["coinsOBJ"] ∧
      Index.SameFrom "/ws/a.obj" w.index (w.rebuildFile {} "b.obj" (some "[gem]")).1.index := by
  intro w
  have hw : Reachable w := .step {} (.parse "/ws/a.obj" "[coins]") (.start ⟨.single, ["ws"]⟩ {})
  have hg : fileKey? (w.fileKey "b.obj") ≠ some "/ws/a.obj" := by decide +kernel
  have hkeys : w.index.symbols.symbols.keys = ["coinsOBJ"] := by decide +kernel
  exact ⟨hkeys, (file_operations_sameFrom hw {} "b.obj" (some "[gem]") "/ws/a.obj" hg).1⟩

end

end Workspace

end ScriptIndex
