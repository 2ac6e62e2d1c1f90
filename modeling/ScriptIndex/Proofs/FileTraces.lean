import ScriptIndex.Proofs.FileIsolation

/-! What is left of a file in the index. Taking a file out leaves nothing of it, and nothing of it comes
back when another file is indexed. A file that is moved leaves nothing either, if files with the new name
are indexed; otherwise the move is not followed, and everything stays under the old name. -/
namespace ScriptIndex

namespace Index

/-- Nothing in the index comes from a file: no symbol is declared in it or refers to it, it has no keys,
and nothing holds from one of its lines on. -/
structure FreeOf (file : String) (i : Index) : Prop where
  undeclared : ∀ (key : String) (s : Symbol), i.symbols.symbols[key]? = some s →
    s.declaredIn file = false
  unreferenced : ∀ (key : String) (s : Symbol), i.symbols.symbols[key]? = some s →
    file ∉ s.references
  keys : i.symbols.files[file]? = none
  switches : i.switches.files[file]? = none
  returns : i.returns.files[file]? = none
  sections : i.sections.files[file]? = none

private theorem SameFrom.symm {g : String} {i j : Index} (h : SameFrom g i j) : SameFrom g j i where
  symbols :=
    ⟨fun key => (h.symbols.positions key).symm, fun key => (h.symbols.declared key).symm,
      h.symbols.keys.symm⟩
  switches := h.switches.symm
  returns := h.returns.symm
  sections := h.sections.symm

/-- A file has contributed nothing exactly if the index holds of it what the empty index does. -/
theorem freeOf_iff {g : String} {i : Index} : i.FreeOf g ↔ SameFrom g {} i := by
  have hpositions (key : String) :
      ((({} : Index).symbols.referencesOf key)[g]? : Option _) = none := by
    simp [SymbolTable.referencesOf]
  have hdeclared (key : String) : ({} : Index).symbols.declaredFrom? g key = none := by
    simp [SymbolTable.declaredFrom?]
  constructor
  · intro h
    refine ⟨⟨fun key => ?_, fun key => ?_, h.keys⟩, h.switches, h.returns, h.sections⟩
    · rw [hpositions, ← Option.not_isSome_iff_eq_none, ← Std.ExtTreeMap.mem_iff_isSome_getElem?,
        SymbolTable.mem_referencesOf]
      rintro ⟨s, hs, hm⟩
      exact h.unreferenced key s hs hm
    · rw [hdeclared, SymbolTable.declaredFrom?, Option.bind_eq_none_iff]
      intro s hs
      rw [Symbol.saidIn, h.undeclared key s hs]
      rfl
  · intro h
    refine ⟨fun key s hs => ?_, fun key s hs hm => ?_, h.symbols.keys, h.switches, h.returns,
      h.sections⟩
    · have hsaid := h.symbols.declared key
      rw [hdeclared, SymbolTable.declaredFrom?, hs, Option.bind_some, Symbol.saidIn] at hsaid
      simpa using hsaid
    · have hplaces := h.symbols.positions key
      rw [hpositions, ← Option.not_isSome_iff_eq_none, ← Std.ExtTreeMap.mem_iff_isSome_getElem?,
        SymbolTable.mem_referencesOf] at hplaces
      exact hplaces ⟨s, hs, hm⟩

private theorem SameFrom.freeOf {g : String} {i j : Index} (h : SameFrom g i j) (hi : i.FreeOf g) :
    j.FreeOf g :=
  freeOf_iff.2 ((freeOf_iff.1 hi).trans h)

/-- A file that is taken out leaves nothing. -/
theorem freeOf_clearFile {i : Index} {file f : String} (hf : fileKey? file = some f)
    (h : i.symbols.Consistent) : (i.clearFile file).FreeOf f where
  undeclared key s hs := by
    have hd := h.declarationOf_clearFile hf key
    rw [SymbolTable.declarationOf_of_some (t := i.symbols.clearFile file) hs] at hd
    rw [Symbol.declaredIn, hd]
    cases i.symbols.declarationOf key with
    | none => rfl
    | some l => by_cases hl : fileKey? l.file = some f <;> simp [Option.filter, hl]
  unreferenced key s hs := by
    have hr := h.referencesOf_clearFile hf key
    rw [SymbolTable.referencesOf_of_some (t := i.symbols.clearFile file) hs] at hr
    simp [hr]
  keys := by rw [clearFile, SymbolTable.files_clearFile hf, if_pos rfl]
  switches := by simp [clearFile, Breakpoints.clearFile, hf]
  returns := by simp [clearFile, Breakpoints.clearFile, hf]
  sections := by simp [clearFile, Breakpoints.clearFile, hf]

/-- Taking a file out brings nothing back of another one. -/
theorem FreeOf.clearFile {g : String} {i : Index} (h : i.FreeOf g) (hc : i.symbols.Consistent)
    (file : String) : (i.clearFile file).FreeOf g := by
  by_cases hg : fileKey? file = some g
  · exact freeOf_clearFile hg hc
  · exact (SameFrom.clearFile hg hc).freeOf h

end Index

namespace Workspace
attribute [local irreducible] isIndexed

variable {w : Workspace}

/-- As long as a file is not read, nothing of it gets into the index. -/
theorem keptReading_freeOf (f : String) :
    KeptReading (fun i => i.symbols.Consistent ∧ i.FreeOf f) fun file => fileKey? file ≠ some f where
  empty := ⟨.empty, Index.freeOf_iff.2 (.refl _)⟩
  scripts _ _ h := ⟨h.1, h.2.undeclared, h.2.unreferenced, h.2.keys, h.2.switches, h.2.returns,
    h.2.sections⟩
  clearFile file _ h := ⟨h.1.clearFile file, h.2.clearFile h.1 file⟩
  parse _ hg _ _ _ h hj := ⟨Index.parse_consistent h.1 hj, (Index.SameFrom.parse hg hj).freeOf h.2⟩

/-- The event that a file is gone takes it out of the index. -/
theorem freeOf_clearFile (hw : w.index.symbols.Consistent) {file f : String}
    (hfile : isIndexed file = true) (hf : fileKey? (w.fileKey file) = some f) :
    (w.clearFile file).index.FreeOf f := by
  rw [clearFile, if_pos hfile]
  exact Index.freeOf_clearFile hf hw

/-- A move is followed if files with either name are indexed: the old file is taken out, and the new one
is read. -/
private theorem index_renamed [KeyOrder] [Codecs] (d : Disk) {file newFile : String}
    (hfile : isIndexed file = true) :
    (w.handle d (.renamed file (some newFile))).1.index =
      if isIndexed newFile then ((w.clearFile file).createFile d newFile).1.index else w.index := by
  -- The empty name has no ending, so files with it are not indexed.
  have hempty : isIndexed "" = false := by
    rw [Bool.eq_false_iff, Ne, isIndexed_iff, toList_fileTypes]
    decide
  have hfollowed : w.handle d (.renamed file (some newFile)) =
      if newFile = "" then (w, .ok ()) else w.renameFile d file newFile := by
    unfold handle
    dsimp only
    by_cases hne : newFile = ""
    · simp [Option.filter, hne]
    · simp [Option.filter, hne]
  rw [hfollowed]
  by_cases hne : newFile = ""
  · simp [hne, hempty]
  · rw [if_neg hne, renameFile, hfile, Bool.true_and]
    split
    · split
      · rename_i w' e he
        rw [he]
      · rename_i w' he
        rw [he]
        dsimp only
        split <;> rfl
    · rfl

/-- A file that is deleted leaves nothing in the index. A file that is moved to another path leaves
nothing exactly if files with the new name are indexed, or there was nothing. -/
theorem freeOf_deleted_renamed [KeyOrder] [Codecs] (hw : Reachable w) (d : Disk) {file newFile f : String}
    (hfile : isIndexed file = true) (hf : fileKey? (w.fileKey file) = some f)
    (hnew : fileKey? (w.fileKey newFile) ≠ some f) :
    (w.handle d (.deleted file)).1.index.FreeOf f ∧
      ((w.handle d (.renamed file (some newFile))).1.index.FreeOf f ↔
        isIndexed newFile = true ∨ w.index.FreeOf f) := by
  have hcleared := freeOf_clearFile hw.consistent hfile hf
  refine ⟨hcleared, ?_⟩
  rw [index_renamed d hfile]
  by_cases hindexed : isIndexed newFile = true
  · have hconsistent : (w.clearFile file).index.symbols.Consistent :=
      (hw.step d (.handle (.deleted file))).consistent
    have hkey : (w.clearFile file).fileKey newFile = w.fileKey newFile := by
      rw [clearFile, if_pos hfile]
      rfl
    have hfree := ((keptReading_freeOf f).keptFor (hkey ▸ hnew)).createFile newFile d
      ⟨hconsistent, hcleared⟩
    rw [if_pos hindexed]
    exact iff_of_true hfree.2 (.inl hindexed)
  · rw [if_neg hindexed, or_iff_right hindexed]

section
attribute [local instance] Codecs.standard KeyOrder.ascending

/-- A script that is deleted, and one that is moved to another script's name. -/
theorem script_deleted_moved :
    let w := ({ root := ⟨.single, ["ws"]⟩ } : Workspace).perform {} (.parse "/ws/a.rs2" "[proc,a]")
    let d : Disk := ⟨.ofList [(["ws"], Node.directory),
      (["ws", "b.rs2"], .file "[proc,a]".toUTF8.data.toList)]⟩
    Reachable w ∧ isIndexed "a.rs2" = true ∧ fileKey? (w.fileKey "a.rs2") = some "/ws/a.rs2" ∧
      fileKey? (w.fileKey "b.rs2") ≠ some "/ws/a.rs2" ∧ ¬ w.index.FreeOf "/ws/a.rs2" ∧
      (w.handle d (.deleted "a.rs2")).1.index.FreeOf "/ws/a.rs2" ∧
      (w.handle d (.renamed "a.rs2" (some "b.rs2"))).1.index.FreeOf "/ws/a.rs2" := by
  intro w d
  have hw : Reachable w := .step {} (.parse "/ws/a.rs2" "[proc,a]") (.start ⟨.single, ["ws"]⟩ {})
  have hfile : isIndexed "a.rs2" = true := by
    rw [isIndexed_iff, toList_fileTypes]
    decide
  have hf : fileKey? (w.fileKey "a.rs2") = some "/ws/a.rs2" := by decide +kernel
  have hnew : fileKey? (w.fileKey "b.rs2") ≠ some "/ws/a.rs2" := by decide +kernel
  have hkeys : (w.index.symbols.files["/ws/a.rs2"]?).isSome = true := by decide +kernel
  have hthere : ¬ w.index.FreeOf "/ws/a.rs2" := fun hfree => by simp [hfree.keys] at hkeys
  have hindexed : isIndexed "b.rs2" = true := by
    rw [isIndexed_iff, toList_fileTypes]
    decide
  obtain ⟨hdeleted, hmoved⟩ := freeOf_deleted_renamed hw d hfile hf hnew
  exact ⟨hw, hfile, hf, hnew, hthere, hdeleted, hmoved.2 (.inl hindexed)⟩

/-- A script that is moved to a name under which files are not indexed stays in the index. -/
theorem script_moved_away_stays :
    let w := ({ root := ⟨.single, ["ws"]⟩ } : Workspace).perform {} (.parse "/ws/a.rs2" "[proc,a]")
    Reachable w ∧ isIndexed "a.rs2" = true ∧ fileKey? (w.fileKey "a.rs2") = some "/ws/a.rs2" ∧
      fileKey? (w.fileKey "a.txt") ≠ some "/ws/a.rs2" ∧
      ¬ (w.handle {} (.renamed "a.rs2" (some "a.txt"))).1.index.FreeOf "/ws/a.rs2" := by
  intro w
  have hfile : isIndexed "a.rs2" = true := by
    rw [isIndexed_iff, toList_fileTypes]
    decide
  have hnew : ¬ isIndexed "a.txt" = true := by
    rw [isIndexed_iff, toList_fileTypes]
    decide
  refine ⟨.step {} (.parse "/ws/a.rs2" "[proc,a]") (.start ⟨.single, ["ws"]⟩ {}), hfile,
    by decide +kernel, by decide +kernel, fun hfree => ?_⟩
  rw [index_renamed {} hfile, if_neg hnew] at hfree
  have hkeys : (w.index.symbols.files["/ws/a.rs2"]?).isSome = true := by decide +kernel
  simp [hfree.keys] at hkeys

end

end Workspace

end ScriptIndex
