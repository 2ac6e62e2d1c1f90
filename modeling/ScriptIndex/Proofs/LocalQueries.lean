import ScriptIndex.Proofs.LocalPlaces
import ScriptIndex.Proofs.ShownScripts

/-! Queries about local variables. Their answers come from the scripts that were read last, and lie in the
file that was shown then; no query asks whether that is its own file. -/
namespace ScriptIndex

namespace Query

/-- Whether all that is answered about a place of a file lies in the file: references, edits of a rename,
and the declaration. -/
structure Stays [KeyOrder] (w : Workspace) (text : String) (line : Int) (file : String)
    (column : Int) : Prop where
  references : ∀ l ∈ references w.index text line file column, w.fileKey l.file = w.fileKey file
  edits : ∀ root d newName plan, rename w.index root d text line file column newName = .ok plan →
    ∀ e ∈ plan.edits, w.fileKey e.location.file = w.fileKey file
  definition : ∀ l, definition? w.index text line file column = some l →
    w.fileKey l.file = w.fileKey file

/-- A local variable has references, and they and its declaration lie in the file whose scripts were
read. -/
private theorem file_of_localAt? {index : Index} {shown text : Option String}
    (hscripts : index.scripts = .ofText shown text) {line : Int} {name : String} {v : Variable}
    (h : localAt? index line name = some v) :
    ∃ f, shown = some f ∧ v.declaration ∈ v.references ∧ ∀ l ∈ v.references, l.file = f := by
  obtain ⟨b, hb, hv⟩ := Option.bind_eq_some_iff.1 h
  rw [hscripts] at hb
  have hmem := ScriptCache.mem_of_at? hb
  match shown, text with
  | none, _ => simp [ScriptCache.ofText] at hmem
  | some f, none => simp [ScriptCache.ofText] at hmem
  | some f, some text =>
    by_cases hending : ScriptCache.hasEnding ".rs2" f = true
    · have hrecorded := ScriptCache.recorded_of_mem hending hmem hv
      refine ⟨f, rfl, List.mem_of_head? hrecorded.first, fun l hl => ?_⟩
      obtain ⟨_, _, _, rfl, -⟩ := hrecorded.shown l hl
      rfl
    · simp [ScriptCache.ofText, hending] at hmem

/-- Queries about a local variable stay in their file exactly if there is no such variable in the scripts,
or if these are scripts of the file. -/
theorem stays_iff [KeyOrder] {w : Workspace} {text file : String} {line column : Int} {m : Match}
    (hm : matchAt? w.index text line file column = some m) (hlocal : m.role.category = .localVar)
    {shown read : Option String} (hscripts : w.index.scripts = .ofText shown read) :
    Stays w text line file column ↔ localAt? w.index line m.word = none ∨
      ∃ f, shown = some f ∧ w.fileKey f = w.fileKey file := by
  have hreferences := references_eq_localAt? hm hlocal
  have hdefinition := definition?_eq_localAt? hm hlocal
  cases hv : localAt? w.index line m.word with
  | none =>
    refine iff_of_true ⟨?_, ?_, ?_⟩ (.inl rfl)
    · simp [hreferences, hv]
    · intro root d newName plan hplan
      rw [rename_eq_references hm hlocal, hreferences, hv] at hplan
      cases hplan
      simp
    · intro l hl
      rw [hdefinition, hv] at hl
      split at hl <;> cases hl
      rfl
  | some v =>
    obtain ⟨f, rfl, hdeclared, hfile⟩ := file_of_localAt? hscripts hv
    rw [hv] at hreferences hdefinition
    have hreferences : references w.index text line file column = v.references := hreferences
    simp only [reduceCtorEq, false_or, Option.some.injEq, exists_eq_left']
    constructor
    · intro hstays
      have h := hstays.references v.declaration (hreferences ▸ hdeclared)
      rwa [hfile _ hdeclared] at h
    · intro h
      refine ⟨?_, ?_, ?_⟩
      · intro l hl
        rw [hreferences] at hl
        rw [hfile l hl, h]
      · intro root d newName plan hplan e he
        rw [rename_eq_references hm hlocal, hreferences] at hplan
        cases hplan
        obtain ⟨l, hl, rfl⟩ := List.mem_map.1 he
        exact (congrArg w.fileKey (hfile l hl)).trans h
      · intro l hl
        rw [hdefinition] at hl
        split at hl
        · cases hl
          rfl
        · cases hl
          rw [hfile _ hdeclared, h]

end Query

namespace Workspace
attribute [local irreducible] isIndexed

def Operation.ReadsScripts [Codecs] (w : Workspace) (d : Disk) : Operation → Prop
  | .runPending => (w.runPending d).2 = .ok ()
  | .flush => w.isPending = true ∧ (w.flush d).2 = .ok ()
  | _ => False

/-- Whether a run has read the scripts last when a file was shown, or none, and has not been closed
since. -/
def LastRead [KeyOrder] [Codecs] (start : Workspace) (steps : List (Disk × Operation))
    (shown : Option String) : Prop :=
  ∃ before d op after, steps = before ++ (d, op) :: after ∧ op.ReadsScripts (start.run before) d ∧
    (start.run before).activeFile = shown ∧
    ∀ between d' op' rest, after = between ++ (d', op') :: rest →
      op' ≠ .close ∧ ¬ op'.ReadsScripts (start.run (before ++ (d, op) :: between)) d'

section
variable {w : Workspace} {d : Disk}

private theorem scripts_rebuildActive [Codecs] :
    ((w.rebuildActive d).2 = .ok () ∧
        ∃ text, (w.rebuildActive d).1.index.scripts = .ofText w.activeFile text) ∨
      ((w.rebuildActive d).2 ≠ .ok () ∧ (w.rebuildActive d).1.index.scripts = w.index.scripts) := by
  unfold rebuildActive
  dsimp only
  split
  · exact .inr ⟨by simp, rfl⟩
  · rename_i text _
    exact .inl ⟨rfl, text, rfl⟩

private theorem scripts_runPending [Codecs] :
    ((w.runPending d).2 = .ok () ∧
        ∃ text, (w.runPending d).1.index.scripts = .ofText w.activeFile text) ∨
      ((w.runPending d).2 ≠ .ok () ∧ (w.runPending d).1.index.scripts = w.index.scripts) :=
  scripts_rebuildActive (w := { w with isPending := false })

/-- Indexing leaves the scripts. -/
private theorem scripts_of_indexing {v : Workspace} (h : Indexing (fun _ => True) (fun _ => True) v w) :
    w.index.scripts = v.index.scripts :=
  h.shown.scripts

/-- No event reads the scripts by itself. -/
private theorem scripts_handle [KeyOrder] [Codecs] (event : Event) : (w.handle d event).1.index.scripts =
    w.index.scripts := by
  cases event with
  | created file => exact scripts_of_indexing (.createFile d trivial)
  | saved file =>
    rw [handle_saved]
    refine (scripts_of_indexing (.rebuildFile d trivial trivial none)).trans ?_
    split <;> rfl
  | renamed file newFile =>
    have hrenames : (Operation.handle (.renamed file newFile)).renames = true := rfl
    obtain ⟨shown, hkeeps⟩ := renames_keeps (w := w) d hrenames
    exact hkeeps.scripts
  | deleted file => exact scripts_of_indexing (.clearOne trivial)
  | activeChanged file text => rfl
  | documentChanged file text =>
    unfold handle
    dsimp only
    split <;> rfl

/-- An operation reads the scripts of the shown file, closes the workspace, or leaves the scripts. -/
theorem scripts_perform [KeyOrder] [Codecs] (op : Operation) :
    (op.ReadsScripts w d ∧ ∃ text, (w.perform d op).index.scripts = .ofText w.activeFile text) ∨
      (op = .close ∧ (w.perform d op).index.scripts = {}) ∨
      (op ≠ .close ∧ ¬ op.ReadsScripts w d ∧ (w.perform d op).index.scripts = w.index.scripts) := by
  cases op with
  | runPending =>
    rcases scripts_runPending (w := w) (d := d) with hread | ⟨hfails, hkept⟩
    · exact .inl hread
    · exact .inr (.inr ⟨Operation.noConfusion, hfails, hkept⟩)
  | flush =>
    by_cases hp : w.isPending = true
    · have hflush : w.flush d = w.runPending d := if_pos hp
      rw [perform, Operation.ReadsScripts, hflush]
      rcases scripts_runPending (w := w) (d := d) with ⟨hok, hread⟩ | ⟨hfails, hkept⟩
      · exact .inl ⟨⟨hp, hok⟩, hread⟩
      · exact .inr (.inr ⟨Operation.noConfusion, fun h => hfails h.2, hkept⟩)
    · have hflush : w.flush d = (w, .ok ()) := if_neg hp
      refine .inr (.inr ⟨Operation.noConfusion, fun h => hp h.1, ?_⟩)
      rw [perform, hflush]
  | close => exact .inr (.inl ⟨rfl, rfl⟩)
  | handle event => exact .inr (.inr ⟨Operation.noConfusion, id, scripts_handle event⟩)
  | setActive file text => exact .inr (.inr ⟨Operation.noConfusion, id, rfl⟩)
  | renameFiles pairs =>
    have hrenames : (Operation.renameFiles pairs).renames = true := rfl
    obtain ⟨shown, hkeeps⟩ := renames_keeps (w := w) d hrenames
    exact .inr (.inr ⟨Operation.noConfusion, id, hkeeps.scripts⟩)
  | rebuildAll =>
    have hcleared : w.index.clear.scripts = w.index.scripts := rfl
    refine .inr (.inr ⟨Operation.noConfusion, id, ?_⟩)
    exact (scripts_of_indexing (.rebuildAll d fun _ _ => trivial)).trans hcleared
  | rebuildFile file text =>
    refine .inr (.inr ⟨Operation.noConfusion, id, ?_⟩)
    exact scripts_of_indexing (.rebuildFile d trivial trivial text)
  | createFiles files =>
    refine .inr (.inr ⟨Operation.noConfusion, id, ?_⟩)
    exact scripts_of_indexing (.createFiles d fun _ _ => trivial)
  | clearFiles files =>
    refine .inr (.inr ⟨Operation.noConfusion, id, ?_⟩)
    exact scripts_of_indexing (.clearFiles fun _ _ => trivial)
  | parse file text =>
    refine .inr (.inr ⟨Operation.noConfusion, id, ?_⟩)
    exact scripts_of_indexing (.withIndex trivial text)

end

section
variable {start : Workspace} {steps : List (Disk × Operation)} {shown : Option String}

/-- The scripts are those of the file that was shown when they were read last. -/
theorem scripts_of_lastRead [KeyOrder] [Codecs] (h : LastRead start steps shown) :
    ∃ text, (start.run steps).index.scripts = .ofText shown text := by
  obtain ⟨before, d, op, after, rfl, hreads, rfl, hsince⟩ := h
  -- The induction is on the last operation behind the reading; each leaves the scripts.
  induction after using List.reverseRecOn with
  | nil =>
    rw [run_concat]
    rcases scripts_perform op with ⟨-, hread⟩ | ⟨rfl, -⟩ | ⟨-, hnot, -⟩
    · exact hread
    · exact hreads.elim
    · exact absurd hreads hnot
  | append_singleton after step ih =>
    obtain ⟨d', op'⟩ := step
    obtain ⟨text, htext⟩ := ih fun between d'' op'' rest hafter =>
      hsince between d'' op'' (rest ++ [(d', op')]) (by simp [hafter])
    obtain ⟨hclose, hnot⟩ := hsince after d' op' [] rfl
    refine ⟨text, ?_⟩
    rw [← List.cons_append, ← List.append_assoc, run_concat]
    rcases scripts_perform op' with ⟨hreads', -⟩ | ⟨rfl, -⟩ | ⟨-, -, hkept⟩
    · exact absurd hreads' hnot
    · exact absurd rfl hclose
    · exact hkept.trans htext

/-- An operation that leaves the scripts leaves open when they were read last. -/
private theorem LastRead.concat [KeyOrder] [Codecs] (h : LastRead start steps shown) {d : Disk}
    {op : Operation}
    (hclose : op ≠ .close) (hnot : ¬ op.ReadsScripts (start.run steps) d) :
    LastRead start (steps ++ [(d, op)]) shown := by
  obtain ⟨before, d', op', after, rfl, hreads, hshown, hsince⟩ := h
  refine ⟨before, d', op', after ++ [(d, op)], by simp, hreads, hshown, ?_⟩
  intro between d'' op'' rest hafter
  rcases List.eq_nil_or_concat rest with rfl | ⟨rest, last, rfl⟩
  · obtain ⟨rfl, hstep⟩ := List.append_inj' hafter rfl
    cases hstep
    exact ⟨hclose, hnot⟩
  · have hafter : after ++ [(d, op)] = (between ++ (d'', op'') :: rest) ++ [last] := by simpa using hafter
    exact hsince between d'' op'' rest (List.append_inj' hafter rfl).1

/-- Unless a run has read no scripts since it started or was closed, there is a last time that it did. -/
private theorem exists_lastRead [KeyOrder] [Codecs] (hstart : start.index.scripts = {})
    (steps : List (Disk × Operation)) :
    (start.run steps).index.scripts = {} ∨ ∃ shown, LastRead start steps shown := by
  induction steps using List.reverseRecOn with
  | nil => exact .inl hstart
  | append_singleton steps step ih =>
    obtain ⟨d, op⟩ := step
    rw [run_concat]
    rcases scripts_perform (w := start.run steps) (d := d) op with
      ⟨hreads, -⟩ | ⟨-, hclosed⟩ | ⟨hclose, hnot, hkept⟩
    · refine .inr ⟨(start.run steps).activeFile, steps, d, op, [], rfl, hreads, rfl, ?_⟩
      intro between d' op' rest hafter
      simp at hafter
    · exact .inl hclosed
    · rw [hkept]
      exact ih.imp_right fun ⟨shown, h⟩ => ⟨shown, h.concat hclose hnot⟩

end

/-- After any run, a local variable can be renamed to any name, and no file is renamed with it. The
references, the edits and the declaration lie in the file asked about exactly if there is no such variable
in the scripts, or if the scripts were read last when that file was shown. -/
theorem local_query_stays_iff [KeyOrder] [Codecs] (root : Path) (scan : ScanSettings)
    (steps : List (Disk × Operation))
    {text file : String} {line column : Int} {m : Match}
    (hm : Query.matchAt? (run { root := root, scan := scan } steps).index text line file column = some m)
    (hlocal : m.role.category = .localVar) :
    let start : Workspace := { root := root, scan := scan }
    let w := start.run steps
    (∀ r d newName, ∃ edits, Query.rename w.index r d text line file column newName =
      .ok { edits := edits }) ∧
    (Query.Stays w text line file column ↔ Query.localAt? w.index line m.word = none ∨
      ∃ shown, LastRead start steps (some shown) ∧ w.fileKey shown = w.fileKey file) := by
  intro start w
  refine ⟨fun r d newName => ⟨_, Query.rename_eq_references hm hlocal r d newName⟩, ?_⟩
  have hstart : start.index.scripts = {} := rfl
  rcases exists_lastRead hstart steps with hnone | ⟨shown, hlast⟩
  · have hscripts : w.index.scripts = .ofText none none := hnone
    rw [Query.stays_iff hm hlocal hscripts]
    refine or_congr_right ⟨?_, ?_⟩
    · rintro ⟨f, ⟨⟩, -⟩
    · rintro ⟨shown, hlast, -⟩
      obtain ⟨read, hread⟩ := scripts_of_lastRead hlast
      cases congrArg ScriptCache.file (hscripts.symm.trans hread)
  · obtain ⟨read, hscripts⟩ := scripts_of_lastRead hlast
    rw [Query.stays_iff hm hlocal hscripts]
    refine or_congr_right ⟨?_, ?_⟩
    · rintro ⟨f, rfl, hfile⟩
      exact ⟨f, hlast, hfile⟩
    · rintro ⟨f, hlast', hfile⟩
      obtain ⟨read', hscripts'⟩ := scripts_of_lastRead hlast'
      exact ⟨f, congrArg ScriptCache.file (hscripts.symm.trans hscripts'), hfile⟩

section
attribute [local instance] Codecs.standard KeyOrder.ascending

/-- A parameter of the shown script is asked about in this script. -/
theorem shown_parameter_stays :
    let start : Workspace := { root := ⟨.single, ["ws"]⟩ }
    let d : Disk := ⟨.ofList [(["ws"], Node.directory)]⟩
    let text := "[proc,f](int $x)\n~g($x)"
    let steps := [(d, Operation.setActive (some "a.rs2") (some text)), (d, .flush)]
    ∃ m, Query.matchAt? (start.run steps).index text 1 "/ws/a.rs2" 4 = some m ∧
      m.role.category = .localVar ∧ (Query.localAt? (start.run steps).index 1 m.word).isSome = true ∧
      Query.Stays (start.run steps) text 1 "/ws/a.rs2" 4 := by
  intro start d text steps
  have hfound : (Query.matchAt? (start.run steps).index text 1 "/ws/a.rs2" 4).map (fun m =>
      (m.role.category, (Query.localAt? (start.run steps).index 1 m.word).isSome)) =
        some (.localVar, true) := by decide +kernel
  obtain ⟨m, hm, hread⟩ := Option.map_eq_some_iff.1 hfound
  simp only [Prod.mk.injEq] at hread
  obtain ⟨hlocal, hvariable⟩ := hread
  refine ⟨m, hm, hlocal, hvariable, ?_⟩
  have hlast : LastRead start steps (some "/ws/a.rs2") := by
    refine ⟨[(d, .setActive (some "a.rs2") (some text))], d, .flush, [], rfl, ⟨rfl, rfl⟩, ?_, ?_⟩
    · decide +kernel
    · intro between d' op' rest hafter
      simp at hafter
  exact (local_query_stays_iff ⟨.single, ["ws"]⟩ {} steps hm hlocal).2.2 (.inr ⟨_, hlast, rfl⟩)

/-- The parameter of a shown script, found when the same name is asked about in another file: the answers
lie in the shown one. -/
theorem other_file_query_strays :
    let start : Workspace := { root := ⟨.single, ["ws"]⟩ }
    let d : Disk := ⟨.ofList [(["ws"], Node.directory)]⟩
    let w := start.run [(d, .setActive (some "b.rs2") (some "[proc,g](int $x)")), (d, .flush)]
    (∃ m, Query.matchAt? w.index "$x" 0 "/ws/a.rs2" 1 = some m ∧ m.role.category = .localVar) ∧
      Query.references w.index "$x" 0 "/ws/a.rs2" 1 = [.at "/ws/b.rs2" 0 13 2] ∧
      Query.definition? w.index "$x" 0 "/ws/a.rs2" 1 = some (.at "/ws/b.rs2" 0 13 2) ∧
      Query.rename w.index (some w.root) d "$x" 0 "/ws/a.rs2" 1 "y" =
        .ok { edits := [⟨.at "/ws/b.rs2" 0 13 2, "$y"⟩] } ∧
      ¬ Query.Stays w "$x" 0 "/ws/a.rs2" 1 := by
  intro start d w
  have hfound : (Query.matchAt? w.index "$x" 0 "/ws/a.rs2" 1).map (fun m => m.role.category) =
      some .localVar := by decide +kernel
  have hreferences : Query.references w.index "$x" 0 "/ws/a.rs2" 1 = [.at "/ws/b.rs2" 0 13 2] := by
    decide +kernel
  refine ⟨Option.map_eq_some_iff.1 hfound, hreferences, by decide +kernel, by decide +kernel, ?_⟩
  intro hstays
  have hfile := hstays.references (.at "/ws/b.rs2" 0 13 2) (by simp [hreferences])
  revert hfile
  decide +kernel

end

end Workspace

end ScriptIndex
