import Mathlib.Data.List.Induction
import ScriptIndex.Proofs.FileTraces

/-! Files that are left out. A rebuild of the whole workspace leaves nothing of them in the index, unless
the root is relative and a file that is found is kept under the key of one that is left out; and an
operation that is told to read a file does not ask whether it is left out. So what the index holds of such
a file comes from an operation since the last rebuild that was told to read it, or from that rebuild. -/
namespace ScriptIndex.Workspace
attribute [local irreducible] isIndexed

variable {w : Workspace} {d : Disk}

def excludes (w : Workspace) (file : String) : Bool :=
  (w.root.below? (Path.parse file)).any w.isExcluded

/-- The workspace after operations, each with the disk as it finds it. -/
def run [KeyOrder] [Codecs] (w : Workspace) (steps : List (Disk × Operation)) : Workspace :=
  steps.foldl (fun w step => w.perform step.1 step.2) w

/-- No file that is left out is found. -/
private theorem excludes_of_mem_findFiles (hd : d.WellNamed) {file : String} (h : file ∈ w.findFiles d) :
    w.excludes file = false := by
  obtain ⟨place, hp, rfl⟩ := List.mem_map.1 h
  obtain ⟨hbelow, hkept⟩ := List.mem_filter.1 hp
  obtain ⟨hthere, hbelow⟩ := List.mem_filter.1 hbelow
  have hnames := hd place (Std.ExtTreeMap.mem_keys.1 hthere)
  have hprefix : w.root.parts.isPrefixOf place = true := (Bool.and_eq_true_iff.1 hbelow).1
  have hparts : w.root.below? ⟨w.root.root, place⟩ = some (place.drop w.root.parts.length) :=
    if_pos ⟨rfl, hprefix⟩
  rw [excludes, Path.parse_text hnames, hparts]
  simpa using (Bool.and_eq_true_iff.1 hkept).2

/-- Under a root that is absolute, a rebuild reads nothing into the index that is left out. -/
private theorem excludes_of_mem_reads_rebuildAll (hd : d.WellNamed) (hroot : w.root.isAbsolute = true)
    {file f : String} (h : file ∈ Operation.rebuildAll.reads w d) (hf : fileKey? file = some f) :
    w.excludes f = false := by
  obtain ⟨found, hfound, rfl⟩ := List.mem_map.1 h
  rw [fileKey?_of_mem_findFiles hd hfound, fileKey_of_mem_findFiles hd hroot hfound] at hf
  cases hf
  exact excludes_of_mem_findFiles hd hfound

/-- A rebuild leaves nothing of a file that it does not read. -/
theorem freeOf_rebuildAll [KeyOrder] [Codecs] {f : String}
    (h : ∀ file ∈ Operation.rebuildAll.reads w d, fileKey? file ≠ some f) :
    (w.rebuildAll d).1.index.FreeOf f :=
  ((keptReading_freeOf f).rebuildAll d fun _ hfile => h _ (List.mem_map_of_mem hfile)).2

/-- What a workspace leaves out and reads depends only on what it was opened with. -/
private theorem excludes_reads_of_setup {v w : Workspace} (h : v.setup = w.setup) :
    v.excludes = w.excludes ∧ ∀ (op : Operation) (d : Disk), op.reads v d = op.reads w d := by
  obtain ⟨root, scan, index, file, text, pending⟩ := v
  obtain ⟨root', scan', index', file', text', pending'⟩ := w
  cases h
  refine ⟨rfl, fun op d => ?_⟩
  unfold Operation.reads
  split <;> rfl

/-- A run changes neither what the workspace was opened with nor that its state is reachable. -/
private theorem setup_run [KeyOrder] [Codecs] (steps : List (Disk × Operation)) : (w.run steps).setup =
    w.setup := by
  induction steps generalizing w with
  | nil => rfl
  | cons step steps ih => exact ih.trans (setup_perform step.1 step.2)

private theorem Reachable.run [KeyOrder] [Codecs] (hw : Reachable w) (steps : List (Disk × Operation)) :
    Reachable (w.run steps) := by
  induction steps generalizing w with
  | nil => exact hw
  | cons step steps ih => exact ih (.step step.1 step.2 hw)

theorem run_concat [KeyOrder] [Codecs] (steps : List (Disk × Operation)) (d : Disk) (op : Operation) :
    w.run (steps ++ [(d, op)]) = (w.run steps).perform d op := by
  rw [run, List.foldl_append]
  rfl

/-- Of a file that is left out the index holds nothing, unless an operation was told to read the file and
the workspace has not been rebuilt since, or the last rebuild itself has kept a file under its key, which
happens under a relative root only. -/
theorem excluded_freeOf_or_read [KeyOrder] [Codecs] (root : Path) (scan : ScanSettings)
    (steps : List (Disk × Operation)) (hd : ∀ step ∈ steps, step.1.WellNamed) {f : String}
    (hf : excludes { root := root, scan := scan } f = true) :
    let start : Workspace := { root := root, scan := scan }
    (start.run steps).index.FreeOf f ∨
      ∃ before d op after, steps = before ++ (d, op) :: after ∧
        (∃ file ∈ op.reads start d, fileKey? file = some f) ∧
        (∀ step ∈ after, step.2 ≠ .rebuildAll) ∧ (op = .rebuildAll → root.isAbsolute = false) := by
  intro start
  -- The induction is on the last operation: the last rebuild is what counts.
  induction steps using List.reverseRecOn with
  | nil => exact .inl ((keptReading_freeOf f).empty).2
  | append_singleton steps step ih =>
    obtain ⟨d, op⟩ := step
    have hwell : d.WellNamed := hd (d, op) (by simp)
    obtain ⟨hexcludes, hreads⟩ := excludes_reads_of_setup (setup_run (w := start) steps)
    rw [run_concat]
    by_cases hread : ∃ file ∈ op.reads start d, fileKey? file = some f
    · refine .inr ⟨steps, d, op, [], rfl, hread, by simp, ?_⟩
      rintro rfl
      obtain ⟨file, hfile, hkey⟩ := hread
      rw [← Bool.not_eq_true]
      intro hroot
      rw [excludes_of_mem_reads_rebuildAll hwell hroot hfile hkey] at hf
      cases hf
    have hnot : ∀ file ∈ op.reads (start.run steps) d, fileKey? file ≠ some f :=
      fun file hfile hkey => hread ⟨file, hreads op d ▸ hfile, hkey⟩
    by_cases hop : op = .rebuildAll
    · subst hop
      exact .inl (freeOf_rebuildAll hnot)
    rcases ih fun step hstep => hd step (List.mem_append_left _ hstep) with
      hfree | ⟨before, d', op', after, hsteps, hread', hafter, hroot⟩
    · have hconsistent := ((Reachable.start root scan).run steps).consistent
      have hkept := (keptReading_freeOf f).perform d op (w := start.run steps) hnot
        ⟨hconsistent, hfree⟩
      exact .inl hkept.2
    · refine .inr ⟨before, d', op', after ++ [(d, op)], by simp [hsteps], hread', ?_, hroot⟩
      intro step hstep
      rw [List.mem_append, List.mem_singleton] at hstep
      rcases hstep with hstep | rfl
      · exact hafter step hstep
      · exact hop

section
attribute [local instance] Codecs.standard KeyOrder.ascending

/-- A rebuild passes over a script that is left out, and the event that another script is saved does not
bring it in. -/
theorem left_out_script_not_indexed :
    let w : Workspace := { root := ⟨.single, ["ws"]⟩ }
    let d : Disk := ⟨.ofList [(["ws"], Node.directory), (["ws", "node_modules"], .directory),
      (["ws", "node_modules", "x.rs2"], .file "[proc,x]".toUTF8.data.toList),
      (["ws", "a.rs2"], .file "[proc,a]".toUTF8.data.toList)]⟩
    let steps := [(d, Operation.rebuildAll), (d, .handle (.saved "a.rs2"))]
    (∀ step ∈ steps, step.1.WellNamed) ∧ w.excludes "/ws/node_modules/x.rs2" = true ∧
      (w.run steps).index.FreeOf "/ws/node_modules/x.rs2" := by
  intro w d steps
  have hwell : d.WellNamed := by decide +kernel
  have hd : ∀ step ∈ steps, step.1.WellNamed := by
    simpa [steps] using hwell
  have hf : w.excludes "/ws/node_modules/x.rs2" = true := by decide +kernel
  refine ⟨hd, hf, ?_⟩
  rcases excluded_freeOf_or_read ⟨.single, ["ws"]⟩ {} steps hd hf with
    hfree | ⟨before, d', op, after, hsteps, ⟨file, hfile, hkey⟩, -, hroot⟩
  · exact hfree
  · -- Only the event is no rebuild, and it reads the other script.
    have hop : (d', op) ∈ steps := hsteps ▸ List.mem_append_right _ List.mem_cons_self
    simp only [steps, List.mem_cons, List.not_mem_nil, or_false, Prod.mk.injEq] at hop
    rcases hop with ⟨-, rfl⟩ | ⟨-, rfl⟩
    · exact absurd (hroot rfl) (by decide)
    · rw [List.mem_singleton.1 hfile] at hkey
      exact absurd hkey (by decide +kernel)

/-- The event that a script is created brings it in although it is left out. -/
theorem left_out_script_created :
    let w : Workspace := { root := ⟨.single, ["ws"]⟩ }
    let d : Disk := ⟨.ofList [(["ws"], Node.directory), (["ws", "node_modules"], .directory),
      (["ws", "node_modules", "x.rs2"], .file "[proc,x]".toUTF8.data.toList)]⟩
    d.WellNamed ∧ w.excludes "/ws/node_modules/x.rs2" = true ∧
      ¬ (w.run [(d, .rebuildAll), (d, .handle (.created "node_modules/x.rs2"))]).index.FreeOf
        "/ws/node_modules/x.rs2" := by
  intro w d
  refine ⟨by decide +kernel, by decide +kernel, fun hfree => ?_⟩
  have hkeys := congrArg Option.isSome hfree.keys
  revert hkeys
  decide +kernel

end

end ScriptIndex.Workspace
