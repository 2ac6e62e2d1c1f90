import Mathlib.Data.List.Induction
import ScriptIndex.Proofs.ExcludedFiles

/-! The scripts of the file that the editor shows. They are those of the file and of its text, or they
wait to be read again: every operation that changes the file or the text asks for them, except a rename,
which takes the shown file along and asks for nothing. -/
namespace ScriptIndex.Workspace
attribute [local irreducible] isIndexed

/-- Whether the scripts are those of the shown file and, if it is a script file with a text that is not
saved, of this text. -/
structure Synced (w : Workspace) : Prop where
  file : w.index.scripts.file = w.activeFile
  blocks : ∀ file text, w.activeFile = some file → ScriptCache.hasEnding ".rs2" file = true →
    w.activeText = some text →
    w.index.scripts.blocks = ScriptBlock.ofLines file (Text.splitLines text.toList)

def Tracked (w : Workspace) : Prop :=
  w.isPending = true ∨ w.Synced

def Operation.renames : Operation → Bool
  | .renameFiles _ => true
  | .handle (.renamed _ _) => true
  | _ => false

/-- Whether an operation renames the shown file and leaves nothing waiting. -/
def Operation.Moves [KeyOrder] [Codecs] (w : Workspace) (d : Disk) (op : Operation) : Prop :=
  op.renames = true ∧ (w.perform d op).isPending = false ∧
    (w.perform d op).activeFile ≠ w.activeFile

def Operation.Fails [Codecs] (w : Workspace) (d : Disk) : Operation → Prop
  | .runPending => ∃ e, (w.runPending d).2 = .error e
  | .flush => ∃ e, (w.flush d).2 = .error e
  | _ => False

structure Keeps (v w : Workspace) : Prop where
  file : w.activeFile = v.activeFile
  text : w.activeText = v.activeText
  scripts : w.index.scripts = v.index.scripts
  pending : v.isPending = true → w.isPending = true

theorem Indexing.shown {clears reads : String → Prop} {v w : Workspace}
    (h : Indexing clears reads v w) : Keeps v w := by
  induction h with
  | refl => exact ⟨rfl, rfl, rfl, id⟩
  | clearFile _ _ ih => exact ⟨ih.file, ih.text, ih.scripts, ih.pending⟩
  | parse _ hi _ ih =>
    exact ⟨ih.file, ih.text, (Index.parse_scripts hi).trans ih.scripts, ih.pending⟩
  | schedule _ ih => exact ⟨ih.file, ih.text, ih.scripts, fun _ => rfl⟩

section
variable {v w : Workspace} {d : Disk}

private theorem Tracked.of_keeps (hw : Keeps v w) (h : v.Tracked) : w.Tracked := by
  refine h.imp hw.pending fun hv => ⟨?_, ?_⟩
  · rw [hw.scripts, hw.file]
    exact hv.file
  · rw [hw.scripts, hw.file, hw.text]
    exact hv.blocks

private theorem Tracked.of_indexing (hw : Indexing (fun _ => True) (fun _ => True) v w) (h : v.Tracked) :
    w.Tracked :=
  h.of_keeps hw.shown

/-- Without a text that is not saved there is less to ask of the scripts. -/
private theorem Tracked.forget (h : w.Tracked) : Tracked { w with activeText := none } :=
  h.imp id fun hw => ⟨hw.file, fun _ _ _ _ htext => by cases htext⟩

theorem renames_keeps [KeyOrder] [Codecs] (d : Disk) {op : Operation} (h : op.renames = true) :
    ∃ shown, Keeps { w with activeFile := shown } (w.perform d op) := by
  unfold Operation.renames at h
  split at h
  · rename_i pairs
    obtain ⟨shown, hrenamed⟩ : ∃ shown, Indexing (fun _ => True) (fun _ => True)
        { w with activeFile := shown } (w.renameFiles d pairs).1 :=
      Indexing.renameFiles d (fun _ _ => trivial) fun _ _ => trivial
    exact ⟨shown, hrenamed.shown⟩
  · rename_i file _
    unfold perform handle
    dsimp only
    split
    · rename_i newFile _
      obtain ⟨shown, hrenamed⟩ : ∃ shown, Indexing (fun _ => True) (fun _ => True)
          { w with activeFile := shown } (w.renameFile d file newFile).1 :=
        Indexing.renameFile d trivial trivial
      exact ⟨shown, hrenamed.shown⟩
    · exact ⟨w.activeFile, rfl, rfl, rfl, id⟩
  · cases h

private theorem tracked_of_renames [KeyOrder] [Codecs] {op : Operation} (hr : op.renames = true)
    (hm : ¬ op.Moves w d)
    (h : w.Tracked) : (w.perform d op).Tracked := by
  obtain ⟨shown, hkeeps⟩ := renames_keeps (w := w) d hr
  by_cases hp : (w.perform d op).isPending = true
  · exact .inl hp
  by_cases hfile : (w.perform d op).activeFile = w.activeFile
  · cases hkeeps.file.symm.trans hfile
    exact h.of_keeps hkeeps
  · exact absurd ⟨hr, Bool.eq_false_iff.2 hp, hfile⟩ hm

private theorem synced_rebuildActive [Codecs] (h : (w.rebuildActive d).2 = .ok ()) :
    (w.rebuildActive d).1.Synced := by
  unfold rebuildActive at h ⊢
  dsimp only at h ⊢
  split at h
  · cases h
  · rename_i text' htext'
    refine ⟨rfl, fun file text hfile hending htext => ?_⟩
    dsimp only at hfile htext ⊢
    rw [hfile, htext] at htext'
    cases htext'
    rw [hfile, ScriptCache.ofText]
    exact if_pos hending

private theorem tracked_runPending [Codecs] (h : ¬ Operation.runPending.Fails w d) :
    (w.runPending d).1.Tracked := by
  refine .inr (synced_rebuildActive ?_)
  cases hr : (rebuildActive { w with isPending := false } d).2 with
  | ok => rfl
  | error e => exact absurd ⟨e, hr⟩ h

private theorem tracked_handle [KeyOrder] [Codecs] (event : Event)
    (hm : ¬ (Operation.handle event).Moves w d) (h : w.Tracked) :
    (w.handle d event).1.Tracked := by
  cases event with
  | created file => exact h.of_indexing (.createFile d trivial)
  | saved file =>
    rw [handle_saved]
    refine .of_indexing (.rebuildFile d trivial trivial none) ?_
    split
    · exact h.forget
    · exact h
  | renamed file newFile => exact tracked_of_renames rfl hm h
  | deleted file => exact h.of_indexing (.clearOne trivial)
  | activeChanged file text => exact .inl rfl
  | documentChanged file text =>
    unfold handle
    dsimp only
    split
    · exact .inl rfl
    · exact h

/-- Every operation but a close keeps the scripts tracked, unless it renames the shown file and leaves
nothing waiting, or fails to read them. -/
theorem tracked_perform [KeyOrder] [Codecs] {op : Operation} (hclose : op ≠ .close) (hm : ¬ op.Moves w d)
    (hf : ¬ op.Fails w d) (h : w.Tracked) : (w.perform d op).Tracked := by
  cases op with
  | rebuildAll =>
    have hcleared : Tracked { w with index := w.index.clear } :=
      h.imp id fun hw => ⟨hw.file, hw.blocks⟩
    exact hcleared.of_indexing (.rebuildAll d fun _ _ => trivial)
  | rebuildFile file text => exact h.of_indexing (.rebuildFile d trivial trivial text)
  | createFiles files => exact h.of_indexing (.createFiles d fun _ _ => trivial)
  | clearFiles files => exact h.of_indexing (.clearFiles fun _ _ => trivial)
  | renameFiles pairs => exact tracked_of_renames rfl hm h
  | parse file text => exact h.of_indexing (.withIndex trivial text)
  | setActive file text => exact .inl rfl
  | runPending => exact tracked_runPending hf
  | flush =>
    by_cases hp : w.isPending = true
    · have hflush : w.flush d = w.runPending d := if_pos hp
      show (w.flush d).1.Tracked
      rw [hflush]
      refine tracked_runPending fun hfails => hf ?_
      rw [Operation.Fails, hflush]
      exact hfails
    · have hflush : w.flush d = (w, .ok ()) := if_neg hp
      show (w.flush d).1.Tracked
      rw [hflush]
      exact h
  | handle event => exact tracked_handle event hm h
  | close => exact absurd rfl hclose

private theorem isPending_flush [Codecs] (w : Workspace) (d : Disk) : (w.flush d).1.isPending = false := by
  unfold flush
  split
  · unfold runPending rebuildActive
    dsimp only
    split <;> rfl
  · rename_i hp
    exact Bool.eq_false_iff.2 hp

/-- A rename of the shown file that leaves nothing waiting leaves the scripts of the old file, and asking
for what waits does not help. -/
private theorem not_synced_of_moves [KeyOrder] [Codecs] {op : Operation} (hm : op.Moves w d)
    (hw : w.Synced) (d' : Disk) :
    ¬ ((w.perform d op).flush d').1.Synced := by
  intro h
  obtain ⟨hrenames, hp, hfile⟩ := hm
  have hflush : ((w.perform d op).flush d').1 = w.perform d op := by
    rw [flush, hp]
    rfl
  rw [hflush] at h
  obtain ⟨shown, hkeeps⟩ := renames_keeps (w := w) d hrenames
  exact hfile (h.file.symm.trans ((congrArg ScriptCache.file hkeeps.scripts).trans hw.file))

end

/-- Whether a run has renamed the shown file, or failed to read its scripts, and has left nothing waiting
since. -/
def Stranded [KeyOrder] [Codecs] (start : Workspace) (steps : List (Disk × Operation)) : Prop :=
  ∃ before d op after, steps = before ++ (d, op) :: after ∧
    (op.Moves (start.run before) d ∨ op.Fails (start.run before) d) ∧
    ∀ between, between <+: after → (start.run (before ++ (d, op) :: between)).isPending = false

private theorem tracked_or_stranded [KeyOrder] [Codecs] (root : Path) (scan : ScanSettings)
    (steps : List (Disk × Operation))
    (hclose : ∀ step ∈ steps, step.2 ≠ .close) :
    let start : Workspace := { root := root, scan := scan }
    (start.run steps).Tracked ∨ Stranded start steps := by
  intro start
  -- The induction is on the last operation; once nothing waits, it may strand the scripts itself.
  induction steps using List.reverseRecOn with
  | nil => exact .inl (.inr ⟨rfl, fun file text hfile => by cases hfile⟩)
  | append_singleton steps step ih =>
    obtain ⟨d, op⟩ := step
    have hop : op ≠ .close := hclose (d, op) (by simp)
    by_cases hp : (start.run (steps ++ [(d, op)])).isPending = true
    · exact .inl (.inl hp)
    have hp := Bool.eq_false_iff.2 hp
    by_cases hstrand : op.Moves (start.run steps) d ∨ op.Fails (start.run steps) d
    · refine .inr ⟨steps, d, op, [], rfl, hstrand, fun between hbetween => ?_⟩
      rw [List.prefix_nil.1 hbetween]
      exact hp
    rcases ih fun step hstep => hclose step (List.mem_append_left _ hstep) with
      htracked | ⟨before, d', op', after, hsteps, hstrand', hafter⟩
    · rw [run_concat]
      exact .inl (tracked_perform hop (fun hm => hstrand (.inl hm)) (fun hf => hstrand (.inr hf))
        htracked)
    · refine .inr ⟨before, d', op', after ++ [(d, op)], by simp [hsteps], hstrand', ?_⟩
      intro between hbetween
      rcases List.prefix_concat_iff.1 hbetween with rfl | hbetween
      · rw [hsteps, List.append_assoc] at hp
        exact hp
      · exact hafter between hbetween

/-- A run without a close that ends with a flush has the scripts of the shown file and of its text, unless
it has renamed the file, or failed to read the scripts, and has left nothing waiting since. Such a rename
does leave the scripts of the old file. -/
theorem synced_or_stranded [KeyOrder] [Codecs] (root : Path) (scan : ScanSettings)
    (steps : List (Disk × Operation))
    (d : Disk) (hclose : ∀ step ∈ steps, step.2 ≠ .close) :
    let start : Workspace := { root := root, scan := scan }
    ((start.run (steps ++ [(d, .flush)])).Synced ∨ Stranded start (steps ++ [(d, .flush)])) ∧
      ∀ before d' op d'', (start.run before).Synced → op.Moves (start.run before) d' →
        ¬ (start.run (before ++ [(d', op), (d'', .flush)])).Synced := by
  intro start
  refine ⟨?_, fun before d' op d'' hsynced hmoves => ?_⟩
  · have hclose' : ∀ step ∈ steps ++ [(d, Operation.flush)], step.2 ≠ .close := by
      intro step hstep
      rcases List.mem_append.1 hstep with hstep | hstep
      · exact hclose step hstep
      · rw [List.mem_singleton.1 hstep]
        exact Operation.noConfusion
    refine (tracked_or_stranded root scan _ hclose').imp_left fun htracked => ?_
    rcases htracked with hp | hsynced
    · rw [run_concat, perform, isPending_flush] at hp
      cases hp
    · exact hsynced
  · have hrun : start.run (before ++ [(d', op), (d'', .flush)]) =
        (((start.run before).perform d' op).flush d'').1 := by
      rw [List.append_cons, run_concat, run_concat]
      rfl
    rw [hrun]
    exact not_synced_of_moves hmoves hsynced d''

section
attribute [local instance] Codecs.standard KeyOrder.ascending

/-- A script that is shown with a text that is not saved. -/
theorem shown_script_synced :
    let w : Workspace := { root := ⟨.single, ["ws"]⟩ }
    let d : Disk := ⟨.ofList [(["ws"], Node.directory)]⟩
    let steps := [(d, Operation.setActive (some "a.rs2") (some "[proc,f]"))]
    (∀ step ∈ steps, step.2 ≠ .close) ∧ (w.run (steps ++ [(d, .flush)])).Synced := by
  intro w d steps
  have hclose : ∀ step ∈ steps, step.2 ≠ .close := by
    rintro step hstep
    rw [List.mem_singleton.1 hstep]
    exact Operation.noConfusion
  refine ⟨hclose, ?_⟩
  rcases (synced_or_stranded ⟨.single, ["ws"]⟩ {} steps d hclose).1 with
    hsynced | ⟨before, d', op, after, hsteps, hstrand, -⟩
  · exact hsynced
  · -- Neither the operation that shows the script nor the flush behind it strands the scripts.
    match before, hsteps, hstrand with
    | [], hsteps, hstrand =>
      cases hsteps
      rcases hstrand with ⟨hrenames, -⟩ | hfails
      · cases hrenames
      · exact hfails.elim
    | [_], hsteps, hstrand =>
      cases hsteps
      rcases hstrand with ⟨hrenames, -⟩ | ⟨e, he⟩
      · cases hrenames
      · cases he
    | _ :: _ :: _, hsteps, _ => simp [steps] at hsteps

/-- A script that is shown and then renamed: the scripts stay those of the old file. -/
theorem renamed_script_not_synced :
    let w : Workspace := { root := ⟨.single, ["ws"]⟩ }
    let d : Disk := ⟨.ofList [(["ws"], Node.directory),
      (["ws", "b.rs2"], .file "[proc,f]".toUTF8.data.toList)]⟩
    ¬ (w.run [(d, .setActive (some "a.rs2") (some "[proc,f]")), (d, .flush),
      (d, .handle (.renamed "a.rs2" (some "b.rs2"))), (d, .flush)]).Synced := by
  intro w d h
  have hfile := h.file
  revert hfile
  decide +kernel

end

end ScriptIndex.Workspace
