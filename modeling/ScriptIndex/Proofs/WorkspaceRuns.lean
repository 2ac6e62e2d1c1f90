import ScriptIndex.Proofs.FilePaths
import ScriptIndex.Proofs.IndexingRuns

/-! Runs of a workspace. Every operation changes the index by a few kinds of steps only: it is dropped,
a file is taken out, a file is indexed, or the scripts of the shown file are read. None changes where the
workspace lies or which files are left out. -/
namespace ScriptIndex.Workspace

-- Which files are indexed is never evaluated here; the table of file types is long.
attribute [local irreducible] isIndexed

/-- An operation on a workspace. -/
inductive Operation where
  | rebuildAll
  | rebuildFile (file : String) (text : Option String)
  | createFiles (files : List String)
  | clearFiles (files : List String)
  | renameFiles (pairs : List (String × String))
  | parse (file text : String)
  | setActive (file : Option String) (text : Option String)
  | runPending
  | flush
  | handle (event : Event)
  | close

def perform [KeyOrder] [Codecs] (w : Workspace) (d : Disk) : Operation → Workspace
  | .rebuildAll => (w.rebuildAll d).1
  | .rebuildFile file text => (w.rebuildFile d file text).1
  | .createFiles files => (w.createFiles d files).1
  | .clearFiles files => w.clearFiles files
  | .renameFiles pairs => (w.renameFiles d pairs).1
  | .parse file text => (w.withIndex (w.index.parse file text)).1
  | .setActive file text => w.setActive file text
  | .runPending => (w.runPending d).1
  | .flush => (w.flush d).1
  | .handle event => (w.handle d event).1
  | .close => w.close

/-- The files that an operation reads into the index, as the index names them. -/
def Operation.reads (w : Workspace) (d : Disk) : Operation → List String
  | .rebuildAll => (w.findFiles d).map w.fileKey
  | .rebuildFile file _ => [w.fileKey file]
  | .createFiles files => files.map w.fileKey
  | .renameFiles pairs => pairs.map fun pair => w.fileKey pair.2
  | .parse file _ => [file]
  | .handle (.created file) => [w.fileKey file]
  | .handle (.saved file) => [w.fileKey file]
  | .handle (.renamed _ (some newFile)) => [w.fileKey newFile]
  | _ => []

/-- The states that operations lead to from a workspace with an empty index. The disk, and the order in
which keys are walked, may be other ones each time. -/
inductive Reachable : Workspace → Prop where
  | start (root : Path) (scan : ScanSettings) : Reachable { root := root, scan := scan }
  | step [KeyOrder] [Codecs] {w : Workspace} (d : Disk) (op : Operation) :
    Reachable w → Reachable (w.perform d op)

structure KeptFor (P : Index → Prop) (file : String) : Prop where
  clearFile : ∀ i, P i → P (i.clearFile file)
  parse : ∀ [KeyOrder] i j text, P i → i.parse file text = .ok j → P j

/-- A property of the index that its steps keep, as long as only certain files are read. -/
structure KeptReading (P : Index → Prop) (readable : String → Prop) : Prop where
  empty : P {}
  scripts : ∀ i s, P i → P { i with scripts := s }
  clearFile : ∀ file i, P i → P (i.clearFile file)
  parse : ∀ [KeyOrder] file, readable file → ∀ i j text, P i → i.parse file text = .ok j → P j

structure Kept (P : Index → Prop) : Prop where
  empty : P {}
  scripts : ∀ i s, P i → P { i with scripts := s }
  file : ∀ file, KeptFor P file

theorem createFiles_nil [KeyOrder] [Codecs] (w : Workspace) (d : Disk) : w.createFiles d [] = (w, .ok ()) :=
  rfl

theorem createFiles_cons [KeyOrder] [Codecs] (w : Workspace) (d : Disk) (file : String)
    (files : List String) :
    w.createFiles d (file :: files) =
      match w.createFile d file with
      | (w, .ok ()) => w.createFiles d files
      | (w, .error e) => (w, .error e) :=
  rfl

private theorem renameFiles_cons [KeyOrder] [Codecs] (w : Workspace) (d : Disk) (file newFile : String)
    (pairs : List (String × String)) :
    w.renameFiles d ((file, newFile) :: pairs) =
      match w.renameFile d file newFile with
      | (w, .ok ()) => w.renameFiles d pairs
      | (w, .error e) => (w, .error e) :=
  rfl

/-- What operations do to the index, one file after the other: a file is taken out, or its text is read,
and the scripts of the shown file are asked for. Nothing else changes. -/
inductive Indexing (clears reads : String → Prop) : Workspace → Workspace → Prop where
  | refl (w : Workspace) : Indexing clears reads w w
  | clearFile {v w : Workspace} {file : String} : clears file → Indexing clears reads v w →
      Indexing clears reads v { w with index := w.index.clearFile file }
  | parse {v w : Workspace} [KeyOrder] {file text : String} {i : Index} : reads file →
      w.index.parse file text = .ok i → Indexing clears reads v w →
      Indexing clears reads v { w with index := i }
  | schedule {v w : Workspace} : Indexing clears reads v w → Indexing clears reads v w.schedule

def setup (w : Workspace) : Path × ScanSettings :=
  (w.root, w.scan)

private theorem fileKey_of_setup {v w : Workspace} (h : v.setup = w.setup) : v.fileKey = w.fileKey := by
  have hroot : v.root = w.root := congrArg Prod.fst h
  funext file
  rw [fileKey, fileKey, hroot]

namespace Indexing
variable {clears reads : String → Prop} {u v w : Workspace} (d : Disk)

private theorem trans (huv : Indexing clears reads u v) (hvw : Indexing clears reads v w) :
    Indexing clears reads u w := by
  induction hvw with
  | refl => exact huv
  | clearFile hc _ ih => exact .clearFile hc ih
  | parse hr hi _ ih => exact .parse hr hi ih
  | schedule _ ih => exact .schedule ih

private theorem setup_eq (h : Indexing clears reads v w) : w.setup = v.setup := by
  induction h with
  | refl => rfl
  | clearFile _ _ ih => exact ih
  | parse _ _ _ ih => exact ih
  | schedule _ ih => exact ih

/-- Which file is shown makes no difference. -/
private theorem showing (h : Indexing clears reads v w) (file : Option String) :
    Indexing clears reads { v with activeFile := file } { w with activeFile := file } := by
  induction h with
  | refl => exact .refl _
  | clearFile hc _ ih => exact .clearFile hc ih
  | @parse w _ _ _ _ hr hi _ ih => exact .parse (w := { w with activeFile := file }) hr hi ih
  | schedule _ ih => exact .schedule ih

/-- What the steps keep of the index, a workspace keeps. -/
theorem keeps {P : Index → Prop} (h : Indexing clears reads v w)
    (hc : ∀ file, clears file → ∀ i, P i → P (i.clearFile file))
    (hr : ∀ [KeyOrder] file, reads file → ∀ i j text, P i → i.parse file text = .ok j → P j)
    (hv : P v.index) : P w.index := by
  induction h with
  | refl => exact hv
  | clearFile hclears _ ih => exact hc _ hclears _ ih
  | parse hreads hi _ ih => exact hr _ hreads _ _ _ ih hi
  | schedule _ ih => exact ih

theorem withIndex [KeyOrder] {file : String} (hr : reads file) (text : String) :
    Indexing clears reads w (w.withIndex (w.index.parse file text)).1 := by
  unfold Workspace.withIndex
  split
  · rename_i i hi
    exact .parse hr hi (.refl w)
  · exact .refl w

private theorem indexFiles [KeyOrder] {i j : Index} {files : List (String × String)}
    (hr : ∀ file ∈ files, reads file.1) (hj : Workspace.indexFiles i files = .ok j)
    (h : Indexing clears reads v { w with index := i }) :
    Indexing clears reads v { w with index := j } :=
  Index.foldlM_keeps (P := fun i => Indexing clears reads v { w with index := i })
    (fun i file _ hfile hs ht => .parse (w := { w with index := i }) (hr file hfile) ht hs) h hj

theorem rebuildAll [KeyOrder] [Codecs] (hr : ∀ file ∈ w.findFiles d, reads (w.fileKey file)) :
    Indexing clears reads { w with index := w.index.clear } (w.rebuildAll d).1 := by
  unfold Workspace.rebuildAll
  dsimp only
  split
  · exact .refl _
  · split
    · exact .refl _
    · rename_i files hfiles
      have hread : ∀ file ∈ files, reads file.1 := by
        intro file hfile
        obtain ⟨found, hfound, he⟩ :=
          List.mem_map.1 ((readAll_sublist hfiles).subset (List.mem_map_of_mem hfile))
        rw [← he]
        exact hr found hfound
      unfold Workspace.withIndex
      cases hi : indexTwice w.index.clear files with
      | error e => exact .refl _
      | ok i =>
        obtain ⟨j, hj, hi⟩ := bind_eq_ok.1 hi
        exact .schedule (indexFiles hread hi (indexFiles hread hj (.refl _)))

private theorem replaceFile [KeyOrder] {file : String} (hc : clears file) (hr : reads file)
    (text : Option String) :
    Indexing clears reads w (w.replaceFile file text).1 := by
  have hcleared : Indexing clears reads w { w with index := w.index.clearFile file } :=
    .clearFile hc (.refl w)
  unfold Workspace.replaceFile
  cases text with
  | none => exact hcleared
  | some text => exact hcleared.trans (withIndex hr text)

theorem rebuildFile [KeyOrder] [Codecs] {file : String} (hc : clears (w.fileKey file))
    (hr : reads (w.fileKey file))
    (text : Option String) : Indexing clears reads w (w.rebuildFile d file text).1 := by
  unfold Workspace.rebuildFile
  split
  · dsimp only
    split
    · exact .refl w
    · rename_i text' _
      have hreplaced : Indexing clears reads w _ := replaceFile hc hr text'
      split
      · rename_i w' he
        rw [he] at hreplaced
        exact .schedule hreplaced
      · rename_i w' e he
        rw [he] at hreplaced
        exact hreplaced
  · exact .refl w

theorem createFile [KeyOrder] [Codecs] {file : String} (hr : reads (w.fileKey file)) :
    Indexing clears reads w (w.createFile d file).1 := by
  unfold Workspace.createFile
  split
  · dsimp only
    split
    · exact .refl w
    · exact .refl w
    · exact withIndex hr _
  · exact .refl w

theorem createFiles [KeyOrder] [Codecs] {files : List String}
    (hr : ∀ file ∈ files, reads (w.fileKey file)) :
    Indexing clears reads w (w.createFiles d files).1 := by
  induction files generalizing w with
  | nil => exact .refl w
  | cons file files ih =>
    have hcreated : Indexing clears reads w _ := createFile d (hr file List.mem_cons_self)
    rw [createFiles_cons]
    split
    · rename_i w' he
      rw [he] at hcreated
      refine hcreated.trans (ih fun other hother => ?_)
      rw [fileKey_of_setup hcreated.setup_eq]
      exact hr other (List.mem_cons_of_mem _ hother)
    · rename_i w' e he
      rw [he] at hcreated
      exact hcreated

theorem clearOne {file : String} (hc : clears (w.fileKey file)) :
    Indexing clears reads w (w.clearFile file) := by
  unfold Workspace.clearFile
  split
  · exact .clearFile hc (.refl w)
  · exact .refl w

theorem clearFiles {files : List String} (hc : ∀ file ∈ files, clears (w.fileKey file)) :
    Indexing clears reads w (w.clearFiles files) := by
  induction files generalizing w with
  | nil => exact .refl w
  | cons file files ih =>
    have hcleared : Indexing clears reads w (w.clearFile file) := clearOne (hc file List.mem_cons_self)
    refine hcleared.trans (ih fun other hother => ?_)
    rw [fileKey_of_setup hcleared.setup_eq]
    exact hc other (List.mem_cons_of_mem _ hother)

/-- A rename may show another file, and takes the old file out and reads the new one. -/
theorem renameFile [KeyOrder] [Codecs] {file newFile : String} (hc : clears (w.fileKey file))
    (hr : reads (w.fileKey newFile)) : ∃ shown,
      Indexing clears reads { w with activeFile := shown } (w.renameFile d file newFile).1 := by
  have hcleared : Indexing clears reads w (w.clearFile file) := clearOne hc
  have hnew : reads ((w.clearFile file).fileKey newFile) :=
    fileKey_of_setup hcleared.setup_eq ▸ hr
  have hcreated := hcleared.trans (createFile d hnew)
  unfold Workspace.renameFile
  split
  · split
    · rename_i w' e he
      rw [he] at hcreated
      exact ⟨w.activeFile, hcreated⟩
    · rename_i w' he
      rw [he] at hcreated
      dsimp only
      split
      · exact ⟨_, hcreated.showing _⟩
      · exact ⟨w.activeFile, hcreated⟩
  · exact ⟨w.activeFile, .refl w⟩

theorem renameFiles [KeyOrder] [Codecs] {pairs : List (String × String)}
    (hc : ∀ pair ∈ pairs, clears (w.fileKey pair.1))
    (hr : ∀ pair ∈ pairs, reads (w.fileKey pair.2)) :
    ∃ shown, Indexing clears reads { w with activeFile := shown } (w.renameFiles d pairs).1 := by
  induction pairs generalizing w with
  | nil => exact ⟨w.activeFile, .refl w⟩
  | cons pair pairs ih =>
    obtain ⟨file, newFile⟩ := pair
    obtain ⟨shown, hrenamed⟩ := renameFile d (hc (file, newFile) List.mem_cons_self)
      (hr (file, newFile) List.mem_cons_self)
    rw [renameFiles_cons]
    split
    · rename_i w' he
      rw [he] at hrenamed
      have hkey : w'.fileKey = w.fileKey := fileKey_of_setup hrenamed.setup_eq
      obtain ⟨later, hothers⟩ := ih (w := w')
        (fun other hother => hkey ▸ hc other (List.mem_cons_of_mem _ hother))
        (fun other hother => hkey ▸ hr other (List.mem_cons_of_mem _ hother))
      exact ⟨later, (hrenamed.showing later).trans hothers⟩
    · rename_i w' e he
      rw [he] at hrenamed
      exact ⟨shown, hrenamed⟩

end Indexing

/-- A file that is saved is indexed anew; if it is shown, its text is the one on disk. -/
theorem handle_saved [KeyOrder] [Codecs] (w : Workspace) (d : Disk) (file : String) :
    (w.handle d (.saved file)).1 = ((if w.activeFile = some (w.fileKey file) then
      { w with activeText := none } else w).rebuildFile d file none).1 := by
  unfold handle
  dsimp only
  split <;> rename_i he <;> rw [he]

/-- What an operation sets before it indexes anything: it may drop the index or everything, show another
file or text, or give the shown file its scripts. -/
inductive Sets (w : Workspace) : Workspace → Prop where
  | shown (file text : Option String) (pending : Bool) :
      Sets w { w with activeFile := file, activeText := text, isPending := pending }
  | scripts (s : ScriptCache) :
      Sets w { w with index := { w.index with scripts := s }, isPending := false }
  | cleared : Sets w { w with index := w.index.clear }
  | closed : Sets w { w with index := {}, isPending := false }

section Cases
variable {w : Workspace} (d : Disk)

private theorem runPending_cases [Codecs] : Sets w (w.runPending d).1 := by
  unfold runPending rebuildActive
  dsimp only
  split
  · exact .shown w.activeFile w.activeText false
  · exact .scripts _

private theorem handle_cases [KeyOrder] [Codecs] (event : Event) : ∃ u, Sets w u ∧
    Indexing (fun _ => True) (· ∈ (Operation.handle event).reads w d) u (w.handle d event).1 := by
  have hself : Sets w w := .shown w.activeFile w.activeText w.isPending
  cases event with
  | created file => exact ⟨w, hself, .createFile d List.mem_cons_self⟩
  | saved file =>
    have hsaved (v : Workspace) (hv : v.setup = w.setup) :
        Indexing (fun _ => True) (· ∈ [w.fileKey file]) v (v.rebuildFile d file none).1 :=
      .rebuildFile d trivial (fileKey_of_setup hv ▸ List.mem_cons_self) none
    rw [handle_saved]
    split
    · exact ⟨_, .shown w.activeFile none w.isPending, hsaved _ rfl⟩
    · exact ⟨w, hself, hsaved w rfl⟩
  | renamed file newFile =>
    unfold handle
    dsimp only
    split
    · rename_i newFile' hnew
      cases (Option.filter_eq_some_iff.1 hnew).1
      obtain ⟨shown, hrenamed⟩ : ∃ shown, Indexing (fun _ => True) (· ∈ [w.fileKey newFile'])
          { w with activeFile := shown } (w.renameFile d file newFile').1 :=
        Indexing.renameFile d trivial List.mem_cons_self
      exact ⟨_, .shown shown w.activeText w.isPending, hrenamed⟩
    · exact ⟨w, hself, .refl w⟩
  | deleted file => exact ⟨w, hself, .clearOne trivial⟩
  | activeChanged file text => exact ⟨_, .shown _ text true, .refl _⟩
  | documentChanged file text =>
    unfold handle
    dsimp only
    split
    · exact ⟨_, .shown w.activeFile text true, .refl _⟩
    · exact ⟨w, hself, .refl w⟩

/-- An operation sets something first, and then indexes the files that it reads. -/
theorem perform_cases [KeyOrder] [Codecs] (op : Operation) : ∃ u, Sets w u ∧
    Indexing (fun _ => True) (· ∈ op.reads w d) u (w.perform d op) := by
  have hself : Sets w w := .shown w.activeFile w.activeText w.isPending
  cases op with
  | rebuildAll => exact ⟨_, .cleared, .rebuildAll d fun _ hfile => List.mem_map_of_mem hfile⟩
  | rebuildFile file text => exact ⟨w, hself, .rebuildFile d trivial List.mem_cons_self text⟩
  | createFiles files => exact ⟨w, hself, .createFiles d fun _ hfile => List.mem_map_of_mem hfile⟩
  | clearFiles files => exact ⟨w, hself, .clearFiles fun _ _ => trivial⟩
  | renameFiles pairs =>
    have hreads : ∀ pair ∈ pairs, w.fileKey pair.2 ∈ (Operation.renameFiles pairs).reads w d :=
      fun pair hpair => List.mem_map.2 ⟨pair, hpair, rfl⟩
    obtain ⟨shown, hrenamed⟩ : ∃ shown,
        Indexing (fun _ => True) (· ∈ (Operation.renameFiles pairs).reads w d)
          { w with activeFile := shown } (w.renameFiles d pairs).1 :=
      Indexing.renameFiles d (fun _ _ => trivial) hreads
    exact ⟨_, .shown shown w.activeText w.isPending, hrenamed⟩
  | parse file text =>
    have hparsed : Indexing (fun _ => True) (· ∈ [file]) w
        (w.withIndex (w.index.parse file text)).1 := .withIndex List.mem_cons_self text
    exact ⟨w, hself, hparsed⟩
  | setActive file text => exact ⟨_, .shown _ text true, .refl _⟩
  | runPending => exact ⟨_, runPending_cases d, .refl _⟩
  | flush =>
    unfold perform flush
    dsimp only
    split
    · exact ⟨_, runPending_cases d, .refl _⟩
    · exact ⟨w, hself, .refl w⟩
  | handle event => exact handle_cases d event
  | close => exact ⟨_, .closed, .refl _⟩

/-- No operation changes what the workspace was opened with. -/
theorem setup_perform [KeyOrder] [Codecs] (op : Operation) : (w.perform d op).setup = w.setup := by
  obtain ⟨u, hsets, hindexing⟩ := perform_cases (w := w) d op
  rw [hindexing.setup_eq]
  cases hsets <;> rfl

end Cases

namespace KeptFor
variable {P : Index → Prop} {w : Workspace} (file : String)

private theorem keeps (h : KeptFor P file) {v w : Workspace} (hw : Indexing (Eq file) (Eq file) v w)
    (hv : P v.index) : P w.index :=
  hw.keeps (by rintro _ rfl; exact h.clearFile) (by rintro _ _ rfl; exact h.parse) hv

theorem rebuildFile [KeyOrder] [Codecs] (h : KeptFor P (w.fileKey file)) (d : Disk) (text : Option String)
    (hw : P w.index) : P (w.rebuildFile d file text).1.index := by
  have hrebuilt : Indexing (Eq (w.fileKey file)) (Eq (w.fileKey file)) w _ :=
    .rebuildFile d rfl rfl text
  exact h.keeps _ hrebuilt hw

theorem createFile [KeyOrder] [Codecs] (h : KeptFor P (w.fileKey file)) (d : Disk) (hw : P w.index) :
    P (w.createFile d file).1.index := by
  have hcreated : Indexing (Eq (w.fileKey file)) (Eq (w.fileKey file)) w _ := .createFile d rfl
  exact h.keeps _ hcreated hw

theorem clearOne (h : KeptFor P (w.fileKey file)) (hw : P w.index) :
    P (w.clearFile file).index := by
  have hcleared : Indexing (Eq (w.fileKey file)) (Eq (w.fileKey file)) w _ := .clearOne rfl
  exact h.keeps _ hcleared hw

end KeptFor

namespace KeptReading
variable {P : Index → Prop} {readable : String → Prop} (h : KeptReading P readable) {w : Workspace}
  (d : Disk)
include h

theorem keptFor {file : String} (hr : readable file) : KeptFor P file :=
  ⟨h.clearFile file, h.parse file hr⟩

private theorem keeps {reads : String → Prop} (hr : ∀ file, reads file → readable file) {v w : Workspace}
    (hw : Indexing (fun _ => True) reads v w) (hv : P v.index) : P w.index :=
  hw.keeps (fun file _ => h.clearFile file) (fun file hfile => h.parse file (hr file hfile)) hv

theorem rebuildAll [KeyOrder] [Codecs] (hr : ∀ file ∈ w.findFiles d, readable (w.fileKey file)) :
    P (w.rebuildAll d).1.index :=
  h.keeps (fun _ => id) (.rebuildAll d hr) (h.scripts {} w.index.scripts h.empty)

/-- One operation keeps what the steps of the index keep for the files that it reads. -/
theorem perform [KeyOrder] [Codecs] (op : Operation) (hr : ∀ file ∈ op.reads w d, readable file)
    (hw : P w.index) :
    P (w.perform d op).index := by
  obtain ⟨u, hsets, hindexing⟩ := perform_cases (w := w) d op
  refine h.keeps hr hindexing ?_
  cases hsets with
  | shown file text pending => exact hw
  | scripts s => exact h.scripts w.index s hw
  | cleared => exact h.scripts {} w.index.scripts h.empty
  | closed => exact h.empty

end KeptReading

/-- What the steps of the index keep holds in every reachable workspace. -/
theorem Kept.reachable {P : Index → Prop} (h : Kept P) {w : Workspace} (hr : Reachable w) :
    P w.index := by
  have hany : KeptReading P fun _ => True :=
    ⟨h.empty, h.scripts, fun file => (h.file file).clearFile, fun file _ => (h.file file).parse⟩
  induction hr with
  | start root scan => exact h.empty
  | step d op _ ih => exact hany.perform d op (fun _ _ => trivial) ih

end ScriptIndex.Workspace
