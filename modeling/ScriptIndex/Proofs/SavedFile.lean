import ScriptIndex.Proofs.FilePaths
import ScriptIndex.Proofs.Reproduction

/-! A file that is saved unchanged after a rebuild. It is taken out of the index and indexed once, while
the rebuild has indexed it twice, with the other files around it. -/
namespace ScriptIndex

namespace Index

/-- Lines of other files let nothing hold in a file. -/
private theorem HoldsFrom.of_others {i : Index} {f : String} {front ls back : List FileLine}
    (h : i.HoldsFrom f (front ++ (ls ++ back)))
    (hothers : ∀ l ∈ front ++ back, fileKey? l.file ≠ some f) : i.HoldsFrom f ls where
  behind l hl := h.behind l (by simp [hl])
  elsewhere n hn := by
    refine h.elsewhere n fun l hl hp => ?_
    simp only [List.mem_append] at hl hothers
    rcases hl with hl | hl | hl
    · exact hothers l (.inl hl) hp.1
    · exact hn l hl hp
    · exact hothers l (.inr hl) hp.1

/-- The switches and the sections of a file come back. -/
private theorem lines_after_clearFile [KeyOrder] {i : Index} (hi : i.Tidy) {file f : String}
    (hf : fileKey? file = some f) {ls : List FileLine} (hordered : FileLine.Ordered ls)
    (hfile : ∀ l ∈ ls, l.file = file) (hholds : i.HoldsFrom f ls) :
    ((i.clearFile file).after ls).switches = i.switches ∧
      ((i.clearFile file).after ls).sections = i.sections := by
  have hvalues (g : String) (n : Int) :
      ((i.clearFile file).after ls).switches.valueAt g n = i.switches.valueAt g n ∧
        ((i.clearFile file).after ls).sections.valueAt g n = i.sections.valueAt g n := by
    by_cases hg : f = g
    · subst hg
      exact HoldsFrom.after_clearFile ((List.append_nil ls).symm ▸ hholds) hf hordered (by simp)
    · obtain ⟨hs, -, hm⟩ := sameValues_after_clearFile hf hfile hg n
      exact ⟨hs, hm⟩
  have hthen := (hi.clearFile file).after ls
  exact ⟨hthen.switches.ext hi.switches fun g n => (hvalues g n).1,
    hthen.sections.ext hi.sections fun g n => (hvalues g n).2⟩

end Index

namespace Workspace

/-- What holds in a file of those that are indexed twice is what its own lines let hold. -/
private theorem holdsFrom_indexTwice (o : KeyOrder) {i : Index} {before behind : List (String × String)}
    {file text : String} (hnodup : ((before ++ (file, text) :: behind).map fun f => fileKey? f.1).Nodup)
    (hkey : fileKey? file = some file) :
    let ls := FileLine.ofFiles (before ++ (file, text) :: behind)
    ((i.clear.after ls).after ls).HoldsFrom file (FileLine.ofFile file text) := by
  have hordered := FileLine.ordered_ofFiles hnodup
  have hholds := Index.holdsFrom_after hordered
    (.inr (Index.holdsFrom_after hordered (.inl (Index.holdsNothing_clear i file))))
  have hall : FileLine.ofFiles (before ++ (file, text) :: behind) =
      FileLine.ofFiles before ++ (FileLine.ofFile file text ++ FileLine.ofFiles behind) := by
    simp [FileLine.ofFiles]
  dsimp only
  rw [hall] at hholds ⊢
  refine hholds.of_others fun l hl => ?_
  rw [← hkey]
  rw [FileLine.ofFiles, FileLine.ofFiles, ← List.flatMap_append] at hl
  obtain ⟨f, hf, hl⟩ := List.mem_flatMap.1 hl
  rw [FileLine.file_of_mem_ofFile hl]
  rw [List.map_append, List.map_cons, List.nodup_middle, ← List.map_append] at hnodup
  exact fun he => (List.nodup_cons.1 hnodup).1 (List.mem_map.2 ⟨f, hf, he⟩)

section
variable {w : Workspace} {d : Disk} {file text : String} {before behind : List (String × String)}
attribute [local irreducible] isIndexed

private theorem fileKey?_of_mem_readAll [Codecs] (hd : d.WellNamed)
    (hfiles : w.readAll d (w.findFiles d) = .ok (before ++ (w.fileKey file, text) :: behind)) :
    fileKey? (w.fileKey file) = some (w.fileKey file) := by
  obtain ⟨found, hmem, he⟩ := List.mem_map.1 ((readAll_sublist hfiles).subset
    (List.mem_map.2 ⟨(w.fileKey file, text), by simp, rfl⟩))
  dsimp only at he
  rw [← he]
  exact fileKey?_of_mem_findFiles hd hmem

private theorem rebuildAll_eq [KeyOrder] [Codecs] {files : List (String × String)}
    (hworkers : 1 ≤ w.scan.ioWorkers)
    (hfiles : w.readAll d (w.findFiles d) = .ok files) :
    w.rebuildAll d = ({ w with
      index := (w.index.clear.after (FileLine.ofFiles files)).after (FileLine.ofFiles files)
      isPending := true }, .ok files.length) := by
  have hread : Workspace.readAll { w with index := w.index.clear } d
      (Workspace.findFiles { w with index := w.index.clear } d) = .ok files := hfiles
  unfold rebuildAll
  dsimp only
  rw [if_neg (by omega), hread]
  dsimp only
  rw [indexTwice_eq]
  rfl

private theorem rebuildFile_eq [KeyOrder] [Codecs] (hindexed : isIndexed file = true)
    (htext : w.read d (w.fileKey file) = .ok (some text)) :
    w.rebuildFile d file none = ({ w with
      index := (w.index.clearFile (w.fileKey file)).after (FileLine.ofFile (w.fileKey file) text)
      isPending := true }, .ok true) := by
  unfold rebuildFile
  rw [if_pos hindexed]
  dsimp only
  rw [if_neg (by simp), htext]
  dsimp only
  unfold replaceFile
  dsimp only
  rw [Index.parse_eq]
  rfl

private theorem handle_saved_eq [KeyOrder] [Codecs] (hindexed : isIndexed file = true)
    (htext : w.read d (w.fileKey file) = .ok (some text)) :
    (w.handle d (.saved file)).2 = .ok () ∧ (w.handle d (.saved file)).1.index =
      (w.index.clearFile (w.fileKey file)).after (FileLine.ofFile (w.fileKey file) text) := by
  unfold handle
  dsimp only
  by_cases hactive : w.activeFile = some (w.fileKey file)
  · -- The text that the editor shows is dropped, which the index does not see.
    rw [if_pos hactive]
    have hsaved := rebuildFile_eq (w := { w with activeText := none }) hindexed htext
    rw [hsaved]
    exact ⟨rfl, rfl⟩
  · rw [if_neg hactive, rebuildFile_eq hindexed htext]
    exact ⟨rfl, rfl⟩

end

private structure PlainParts where
  name : String
  category : Category
  fileType : String
  packId : Option String
  declaration : Option Location
  references : List (String × List Position)
  info : Option String
  signature : Option Signature
  block : Option String
  value : Option String
  hidden : Bool
  deriving DecidableEq

private def plainParts (s : Symbol) : PlainParts :=
  { s with references := s.references.toList.map (Prod.map id Std.ExtTreeSet.toList) }

private theorem eq_of_plainParts {s s' : Symbol} (h : plainParts s = plainParts s') (hs : s.extra = [])
    (hs' : s'.extra = []) : s = s' := by
  have hinjective : Function.Injective (Std.ExtTreeSet.toList : Std.ExtTreeSet Position → _) :=
    fun _ _ => Std.ExtTreeSet.toList_inj.1
  have hreferences := Std.ExtTreeMap.toList_inj.1
    (List.map_injective_iff.2 (Function.injective_id.prodMap hinjective) (congrArg PlainParts.references h))
  cases s
  cases s'
  simp_all [plainParts]

private theorem entries_eq_of_plainParts {xs ys : List (String × Symbol)}
    (h : (xs.map fun p => (p.1, plainParts p.2)) = ys.map fun p => (p.1, plainParts p.2))
    (hx : ∀ p ∈ xs, p.2.extra = []) (hy : ∀ p ∈ ys, p.2.extra = []) : xs = ys := by
  induction xs generalizing ys with
  | nil => exact (List.map_eq_nil_iff.1 h.symm).symm
  | cons x xs ih =>
    cases ys with
    | nil => cases h
    | cons y ys =>
      obtain ⟨hxy, h⟩ := List.cons.inj h
      obtain ⟨hx, hxs⟩ := List.forall_mem_cons.1 hx
      obtain ⟨hy, hys⟩ := List.forall_mem_cons.1 hy
      obtain ⟨hk, hs⟩ := Prod.mk.inj hxy
      rw [ih h hxs hys, show x = y from Prod.ext hk (eq_of_plainParts hs hx hy)]

private theorem table_eq_of_plainParts {t u : SymbolTable} (ht : t.Tidy) (hu : u.Tidy)
    (h : (t.symbols.toList.map fun p => (p.1, plainParts p.2)) =
      u.symbols.toList.map fun p => (p.1, plainParts p.2))
    (hx : ∀ p ∈ t.symbols.toList, p.2.extra = []) (hy : ∀ p ∈ u.symbols.toList, p.2.extra = []) :
    t = u := by
  have hsymbols := Std.ExtTreeMap.toList_inj.1 (entries_eq_of_plainParts h hx hy)
  refine ht.ext hu (fun k => ?_) (fun k f p => ?_) fun k => ?_
  · rw [SymbolTable.toldOf, SymbolTable.toldOf, hsymbols]
  · rw [SymbolTable.Records, SymbolTable.Records, SymbolTable.referencesOf, SymbolTable.referencesOf,
      hsymbols]
  · rw [SymbolTable.packIdOf, SymbolTable.packIdOf, hsymbols]

private theorem breakpoints_eq {b c : Breakpoints}
    (h : b.files.toList.map (Prod.map id Std.ExtTreeMap.toList) =
      c.files.toList.map (Prod.map id Std.ExtTreeMap.toList)) : b = c := by
  have hinjective : Function.Injective (Std.ExtTreeMap.toList : Std.ExtTreeMap Int String → _) :=
    fun _ _ => Std.ExtTreeMap.toList_inj.1
  obtain ⟨files⟩ := b
  obtain ⟨files'⟩ := c
  exact congrArg _ (Std.ExtTreeMap.toList_inj.1
    (List.map_injective_iff.2 (Function.injective_id.prodMap hinjective) h))

private theorem same_after_clearFile [KeyOrder] {i : Index} (hi : i.Tidy) (file : String)
    (ls : List FileLine) (hsymbols : ((i.clearFile file).after ls).symbols = i.symbols)
    (hswitches : ((i.clearFile file).after ls).switches = i.switches)
    (hreturns : ((i.clearFile file).after ls).returns = i.returns)
    (hsections : ((i.clearFile file).after ls).sections = i.sections) :
    (i.clearFile file).after ls = i := by
  refine ((hi.clearFile file).after ls).ext hi hsymbols ⟨fun f n => ?_, fun f n => ?_, fun f n => ?_⟩
    (Index.scripts_after _ ls)
  · rw [hswitches]
  · rw [hreturns]
  · rw [hsections]

section
attribute [local instance] Codecs.standard KeyOrder.ascending

end

end Workspace

end ScriptIndex
