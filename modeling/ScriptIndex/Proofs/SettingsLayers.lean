import ScriptIndex.Proofs.SettingsLoading
import ScriptIndex.Settings.Files

/-! Settings in layers, seen setting by setting. Each has the value of its variable, or else that of the
project's file, or else that of the user's file, or else its default; only where both files have a mapping
in its place are the two merged. What is loaded is what these five values are read as if they can be and the
result is valid, and the defaults as a whole if not. -/
namespace ScriptIndex

namespace Datum

def Entries.Distinct (entries : Entries) : Prop :=
  entries.Pairwise fun e f => (e.1 == f.1) = false

instance (entries : Entries) : Decidable entries.Distinct :=
  inferInstanceAs (Decidable (List.Pairwise _ _))

def keysOnce : Datum → Bool
  | list items => onceInItems items
  | map entries => Entries.Distinct entries && onceInEntries entries
  | _ => true
where
  /-- Whether no key comes twice in the items of a list. -/
  onceInItems : List Datum → Bool
    | [] => true
    | item :: items => keysOnce item && onceInItems items
  /-- Whether no key comes twice in the values of a mapping. -/
  onceInEntries : List (Key × Datum) → Bool
    | [] => true
    | (_, value) :: entries => keysOnce value && onceInEntries entries

theorem keysOnce_list_iff {items : List Datum} :
    (list items).keysOnce = true ↔ ∀ item ∈ items, item.keysOnce = true := by
  rw [keysOnce]
  induction items with
  | nil => simp [keysOnce.onceInItems]
  | cons item items ih => simp [keysOnce.onceInItems, ih]

theorem keysOnce_map_iff {entries : Entries} :
    (map entries).keysOnce = true ↔ entries.Distinct ∧ ∀ e ∈ entries, e.2.keysOnce = true := by
  have hvalues : keysOnce.onceInEntries entries = true ↔ ∀ e ∈ entries, e.2.keysOnce = true := by
    induction entries with
    | nil => simp [keysOnce.onceInEntries]
    | cons entry entries ih => rw [keysOnce.onceInEntries, Bool.and_eq_true, ih, List.forall_mem_cons]
  rw [keysOnce, Bool.and_eq_true, decide_eq_true_iff, hvalues]

private theorem keysOnce_toDatum (key : Key) : key.toDatum.keysOnce = true := by
  cases key <;> rfl

end Datum

namespace Settings
open Datum

private theorem mem_of_lookup {data : Entries} {name : String} {value : Datum}
    (h : data.lookup (.text name) = some value) : (.text name, value) ∈ data := by
  induction data with
  | nil => cases h
  | cons entry data ih =>
    obtain ⟨key, other⟩ := entry
    rw [List.lookup_cons, text_beq_comm] at h
    cases hkey : key == .text name with
    | false =>
      rw [hkey] at h
      exact List.mem_cons_of_mem _ (ih h)
    | true =>
      obtain rfl := beq_text_iff.1 hkey
      rw [hkey] at h
      cases h
      exact List.mem_cons_self

private theorem mem_assign {key : Datum.Key} {value : Datum} {data : Entries} {e : Datum.Key × Datum}
    (h : e ∈ assign key value data) :
    (e.1 = key ∨ ∃ old ∈ data, old.1 = e.1) ∧ (e.2 = value ∨ e ∈ data) := by
  induction data with
  | nil =>
    obtain rfl := List.mem_singleton.1 h
    exact ⟨.inl rfl, .inl rfl⟩
  | cons entry data ih =>
    unfold assign at h
    split at h
    · rcases List.mem_cons.1 h with rfl | he
      · exact ⟨.inr ⟨entry, List.mem_cons_self, rfl⟩, .inl rfl⟩
      · exact ⟨.inr ⟨e, List.mem_cons_of_mem entry he, rfl⟩, .inr (List.mem_cons_of_mem entry he)⟩
    · rcases List.mem_cons.1 h with rfl | he
      · exact ⟨.inr ⟨e, List.mem_cons_self, rfl⟩, .inr List.mem_cons_self⟩
      · obtain ⟨hkey, hvalue⟩ := ih he
        refine ⟨?_, hvalue.imp_right (List.mem_cons_of_mem entry)⟩
        rcases hkey with hkey | ⟨old, hold, hkey⟩
        · exact .inl hkey
        · exact .inr ⟨old, List.mem_cons_of_mem entry hold, hkey⟩

private theorem distinct_assign {data : Entries} (h : data.Distinct) (key : Datum.Key) (value : Datum) :
    Entries.Distinct (assign key value data) := by
  induction data with
  | nil => exact List.pairwise_singleton _ _
  | cons entry data ih =>
    obtain ⟨hentry, hdata⟩ := List.pairwise_cons.1 h
    unfold assign
    split
    · exact List.pairwise_cons.2 ⟨hentry, hdata⟩
    · rename_i hother
      refine List.pairwise_cons.2 ⟨fun e he => ?_, ih hdata⟩
      rcases (mem_assign he).1 with hkey | ⟨old, hold, hkey⟩
      · rw [hkey]
        exact Bool.eq_false_iff.2 hother
      · rw [← hkey]
        exact hentry old hold

private theorem keysOnce_assign {data : Entries} (h : (Datum.map data).keysOnce = true) (key : Datum.Key)
    {value : Datum} (hvalue : value.keysOnce = true) :
    (Datum.map (assign key value data)).keysOnce = true := by
  obtain ⟨hdistinct, hvalues⟩ := keysOnce_map_iff.1 h
  refine keysOnce_map_iff.2 ⟨distinct_assign hdistinct key value, fun e he => ?_⟩
  rcases (mem_assign he).2 with heq | he
  · exact heq ▸ hvalue
  · exact hvalues e he

/-- No key comes twice in what is read from a settings file. -/
theorem keysOnce_parse {text : String} {d : Datum} (h : Yaml.parse text = .value d) :
    d.keysOnce = true := by
  have hvalue (fuel : Nat) (node : Yaml.Node) : (node.value fuel).keysOnce = true := by
    induction fuel generalizing node with
    | zero => cases node <;> rfl
    | succ fuel ih =>
      cases node with
      | scalar text isPlain => exact keysOnce_toDatum _
      | list items => exact keysOnce_list_iff.2 (List.forall_mem_map.2 fun item _ => ih item)
      | mapping entries =>
        -- The mapping is filled by assignments.
        exact List.foldlRecOn ((Yaml.Node.mergedEntries? fuel entries).getD []) _
          (motive := fun done => (Datum.map done).keysOnce = true) rfl
          fun done hdone e _ => keysOnce_assign hdone _ (ih e.2)
  unfold Yaml.parse at h
  split at h
  · rename_i value hread
    cases h
    obtain ⟨tokens, -, hread⟩ := bind_eq_ok.1 hread
    obtain ⟨node, -, hread⟩ := bind_eq_ok.1 hread
    dsimp only at hread
    split at hread
    · cases hread
    · cases hread
      exact hvalue _ node
  · cases h
  · cases h

private theorem parse_of_onDisk? {d : Disk} {path : Path} {value : Datum}
    (h : Document.onDisk? d path = some (.value value)) : ∃ text, Yaml.parse text = .value value := by
  unfold Document.onDisk? at h
  split at h
  · cases h
  · cases h
  · split at h
    · cases h
    · split at h
      · cases h
      · exact ⟨_, Option.some.inj h⟩

def laid (under top : Option Datum) : Option Datum :=
  match under, top with
  | some (.map lower), some (.map upper) => some (.map (merge lower upper))
  | _, some value => some value
  | under, none => under

@[simp]
theorem laid_none_left (top : Option Datum) : laid none top = top := by
  cases top <;> rfl

@[simp]
theorem laid_none_right (under : Option Datum) : laid under none = under := by
  cases under with
  | none => rfl
  | some d => cases d <;> rfl

theorem laid_some (under : Option Datum) (value : Datum) :
    laid under (some value) = some (merge.layOver under value) := by
  unfold laid merge.layOver
  cases under with
  | none => cases value <;> rfl
  | some d => cases d <;> cases value <;> rfl

private theorem lookup_merge {top : Entries} (h : top.Distinct) (base : Entries) (name : String) :
    (merge base top).lookup (.text name) =
      laid (base.lookup (.text name)) (top.lookup (.text name)) := by
  induction top generalizing base with
  | nil => simp [merge]
  | cons entry top ih =>
    obtain ⟨key, value⟩ := entry
    obtain ⟨hentry, htop⟩ := List.pairwise_cons.1 h
    rw [merge, ih htop, lookup_assign, List.lookup_cons, text_beq_comm]
    cases hkey : key == .text name with
    | false => rfl
    | true =>
      obtain rfl := beq_text_iff.1 hkey
      have hnone : top.lookup (.text name) = none :=
        List.lookup_eq_none_iff.2 fun e he => congrArg not (hentry e he)
      simp [hnone, laid_some]

namespace Key

def group : Key → String
  | .excludePatterns | .ioWorkers | .encoding => "index"
  | .debounce => "editor"
  | .level => "logging"

def name : Key → String
  | .excludePatterns => "exclude_patterns"
  | .ioWorkers => "io_workers"
  | .encoding => "encoding"
  | .debounce => "debounce_seconds"
  | .level => "level"

example : ∀ key ∈ all, key.text = key.group ++ "." ++ key.name := by decide

end Key

def at? (data : Entries) (key : Key) : Option Datum :=
  value? data key.group key.name

def datum (s : Settings) : Key → Datum
  | .excludePatterns => .list (s.scan.excludePatterns.map .text)
  | .ioWorkers => .int s.scan.ioWorkers
  | .encoding => s.scan.encoding
  | .debounce => .float s.editor.debounce
  | .level => .text s.log.level

def HasSections (data : Entries) : Prop :=
  ∀ (key : Key) (d : Datum), data.lookup (.text key.group) = some d → ∃ entries, d = .map entries

/-- Whether a settings file is a mapping, with no key twice, in which each section is absent or a mapping. -/
structure Sectioned (data : Entries) : Prop where
  once : (Datum.map data).keysOnce = true
  sections : HasSections data

/-- No key comes twice in a file that is read, so that only its sections are left to be asked for. -/
theorem Sectioned.of_onDisk? {d : Disk} {path : Path}
    (h : HasSections (documentEntries (Document.onDisk? d path))) :
    Sectioned (documentEntries (Document.onDisk? d path)) := by
  refine ⟨?_, h⟩
  cases hdocument : Document.onDisk? d path with
  | none => rfl
  | some document =>
    cases document with
    | malformed => rfl
    | unreadable e => rfl
    | broken e => rfl
    | value data =>
      obtain ⟨text, hparse⟩ := parse_of_onDisk? hdocument
      cases data with
      | map entries => exact keysOnce_parse hparse
      | _ => rfl

/-- The sections of the lower mapping matter only where the upper one has none. -/
theorem hasSections_merge {base top : Entries} (htop : Sectioned top)
    (hbase : ∀ (key : Key) (d : Datum), top.lookup (.text key.group) = none →
      base.lookup (.text key.group) = some d → ∃ entries, d = .map entries) :
    HasSections (merge base top) := by
  intro key d hd
  rw [lookup_merge (keysOnce_map_iff.1 htop.once).1] at hd
  cases hsection : top.lookup (.text key.group) with
  | none =>
    rw [hsection, laid_none_right] at hd
    exact hbase key d hsection hd
  | some upper =>
    obtain ⟨upper, rfl⟩ := htop.sections key upper hsection
    rw [hsection, laid_some] at hd
    cases hd
    unfold merge.layOver
    split <;> exact ⟨_, rfl⟩

/-- Where one mapping of sections is laid over another, so is each setting. -/
theorem at?_merge {top : Entries} (h : Sectioned top) (base : Entries) (key : Key) :
    at? (merge base top) key = laid (at? base key) (at? top key) := by
  unfold at? value?
  rw [lookup_merge (keysOnce_map_iff.1 h.once).1]
  cases hsection : top.lookup (.text key.group) with
  | none => simp
  | some upper =>
    obtain ⟨upper, rfl⟩ := h.sections key upper hsection
    have honce := (keysOnce_map_iff.1 h.once).2 _ (mem_of_lookup hsection)
    have hupper : Entries.Distinct upper := (keysOnce_map_iff.1 honce).1
    cases base.lookup (.text key.group) with
    | none => simp
    | some d =>
      cases d with
      | map lower => exact lookup_merge hupper lower key.name
      | _ => exact (laid_none_left _).symm

private theorem HasSections.overlay {group key : String} {value : Option String} {data data' : Entries}
    (hdata : HasSections data) (h : overlay group key value data = .ok data') : HasSections data' := by
  intro other d hd
  rcases overlay_cases h with ⟨-, rfl⟩ | ⟨v, entries, -, -, rfl⟩
  · exact hdata other d hd
  · rw [lookup_assign_text] at hd
    split at hd
    · cases hd
      exact ⟨_, rfl⟩
    · exact hdata other d hd

/-- A variable that is set stands over its setting, and leaves the others. -/
private theorem value?_overlay {group key : String} {value : Option String} {data data' : Entries}
    (h : Settings.overlay group key value data = .ok data') (other name : String) :
    value? data' other name = if group = other ∧ key = name then
        ((value.filter (· ≠ "")).map .text).or (value? data other name)
      else value? data other name := by
  rcases overlay_cases h with ⟨hnone, rfl⟩ | ⟨v, entries, hv, hentries, rfl⟩
  · rw [hnone]
    split <;> rfl
  · rw [hv]
    by_cases hgroup : group = other
    · subst hgroup
      rw [value?, lookup_assign_text, if_pos rfl]
      dsimp only
      rw [lookup_assign_text, hentries]
      by_cases hkey : key = name <;> simp [hkey]
    · rw [value?, lookup_assign_text, if_neg hgroup, if_neg fun h => hgroup h.1]
      rfl

def ofValues (values : Key → Datum) : Except Fault Settings := do
  let excludePatterns ← patterns (values .excludePatterns)
  let ioWorkers ← (values .ioWorkers).toInt.mapError .misfit
  let debounce ← (values .debounce).toFloat.mapError .misfit
  let level ← (values .level).toText.mapError .misfit
  return { scan := ⟨excludePatterns, ioWorkers, values .encoding⟩, editor := ⟨debounce⟩,
           log := ⟨Text.upper level⟩ }

def valueIn (data : Entries) (key : Key) : Datum :=
  (at? data key).getD (datum {} key)

private theorem entriesUnder_of_hasSections {data : Entries} (h : HasSections data) (key : Key) :
    ∃ entries, entriesUnder data key.group = .ok entries := by
  unfold entriesUnder
  cases hsection : data.lookup (.text key.group) with
  | none => exact ⟨[], rfl⟩
  | some d =>
    obtain ⟨entries, rfl⟩ := h key d hsection
    dsimp only
    split
    · exact ⟨entries, rfl⟩
    · exact ⟨[], rfl⟩

theorem ok_bind {α β : Type} {x : Except Fault α} {a : α} (h : x = .ok a) (next : α → Except Fault β) :
    x >>= next = next a := by
  rw [h]
  rfl

/-- A missing setting has its default, which is what its plain default is read as. -/
private theorem bind_setting {α β : Type} (read : Datum → Except Fault α) {default : α} (plain : Datum)
    (h : read plain = .ok default) {value : Option Datum} {next next' : α → Except Fault β}
    (hnext : ∀ a, next a = next' a) :
    (match value with
      | some value => read value >>= next
      | none => .ok default >>= next) = read (value.getD plain) >>= next' := by
  obtain rfl : next = next' := funext hnext
  cases value with
  | none => exact congrArg (· >>= next) h.symm
  | some value => rfl

/-- Settings are read from their values in the data. -/
theorem ofEntries_eq {data : Entries} (h : HasSections data) :
    ofEntries data = ofValues (valueIn data) := by
  obtain ⟨scan, hscan : entriesUnder data "index" = .ok scan⟩ := entriesUnder_of_hasSections h .ioWorkers
  obtain ⟨editor, heditor : entriesUnder data "editor" = .ok editor⟩ :=
    entriesUnder_of_hasSections h .debounce
  obtain ⟨log, hlog : entriesUnder data "logging" = .ok log⟩ := entriesUnder_of_hasSections h .level
  unfold ofEntries ofValues valueIn at?
  refine (ok_bind hscan _).trans ?_
  simp only [Key.group, Key.name, ← lookup_of_entriesUnder hscan, ← lookup_of_entriesUnder heditor,
    ← lookup_of_entriesUnder hlog]
  refine bind_setting patterns (datum {} .excludePatterns) rfl fun excludePatterns => ?_
  refine bind_setting (fun value => value.toInt.mapError .misfit) (datum {} .ioWorkers) rfl
    fun ioWorkers => ?_
  refine (ok_bind heditor _).trans ?_
  refine bind_setting (fun value => value.toFloat.mapError .misfit) (datum {} .debounce) rfl
    fun debounce => ?_
  refine (ok_bind hlog _).trans ?_
  exact bind_setting (fun value => value.toText.mapError .misfit) (datum {} .level) rfl fun level => rfl

/-- Settings that can be read and are valid stand. -/
theorem settle_of_valid [Codecs] {data : Entries} {s : Settings} (hread : ofEntries data = .ok s)
    (hvalid : s.check = .ok none) : (settle data).2 = .ok s := by
  unfold settle
  rw [hread]
  dsimp only
  rw [hvalid]

/-- Settings that cannot be read or are invalid give way to the defaults. -/
theorem eq_default_of_settle [Codecs] {data : Entries} {settings : Settings}
    (h : (settle data).2 = .ok settings)
    (hinvalid : ∀ s, ofEntries data = .ok s → s.check ≠ .ok none) : settings = {} := by
  rcases settle_cases h with hdefault | ⟨hread, hvalid⟩
  · exact hdefault
  · exact absurd hvalid (hinvalid settings hread)

end Settings

namespace SettingsStore
open Settings

/-- The variable of a setting, if there is one and it is not empty. -/
def override? (s : SettingsStore) : Key → Option String
  | .debounce => s.environment.debounce.filter (· ≠ "")
  | .ioWorkers => s.environment.ioWorkers.filter (· ≠ "")
  | .level => s.environment.logLevel.filter (· ≠ "")
  | .excludePatterns | .encoding => none

/-- The value of a setting in all layers. -/
def valueOf (s : SettingsStore) (key : Key) : Datum :=
  (((s.override? key).map .text).or
    (laid (at? (documentEntries s.user) key) (at? (documentEntries s.project) key))).getD (datum {} key)

theorem at?_withEnvironment {s : SettingsStore} {data data' : Datum.Entries}
    (h : s.withEnvironment data = .ok data') (key : Key) :
    at? data' key = ((s.override? key).map .text).or (at? data key) := by
  simp only [withEnvironment, bind_eq_ok] at h
  obtain ⟨data₁, h₁, data₂, h₂, h₃⟩ := h
  unfold at?
  rw [value?_overlay h₃, value?_overlay h₂, value?_overlay h₁]
  cases key <;> rfl

theorem hasSections_withEnvironment {s : SettingsStore} {data data' : Datum.Entries}
    (hdata : HasSections data) (h : s.withEnvironment data = .ok data') : HasSections data' := by
  simp only [withEnvironment, bind_eq_ok] at h
  obtain ⟨data₁, h₁, data₂, h₂, h₃⟩ := h
  exact ((hdata.overlay h₁).overlay h₂).overlay h₃

theorem exists_withEnvironment (s : SettingsStore) {data : Datum.Entries} (h : HasSections data) :
    ∃ data', s.withEnvironment data = .ok data' := by
  have hfree (key : Key) (value : Option String) : ¬ Blocks key.group value data := by
    rintro ⟨-, d, hd, hno⟩
    obtain ⟨entries, rfl⟩ := h key d hd
    exact hno entries rfl
  refine (s.withEnvironment_ok_iff data).2 ?_
  rintro (hb | hb | hb)
  · exact hfree .debounce _ hb
  · exact hfree .ioWorkers _ hb
  · exact hfree .level _ hb

section
variable {s : SettingsStore} (huser : Sectioned (documentEntries s.user))
  (hproject : Sectioned (documentEntries s.project))
include huser hproject

private theorem hasSections_entries : HasSections s.entries := by
  have hlower : HasSections (merge [] (documentEntries s.user)) := hasSections_merge huser nofun
  exact hasSections_merge hproject fun key d _ => hlower key d

private theorem valueIn_withEnvironment {data : Datum.Entries}
    (h : s.withEnvironment s.entries = .ok data) :
    valueIn data = s.valueOf := by
  funext key
  have hnone : at? [] key = none := rfl
  rw [valueIn, valueOf, at?_withEnvironment h, entries, at?_merge hproject, at?_merge huser, hnone,
    laid_none_left]

end

/-- Loading settings for the first time gives what their values in all layers are read as, if they can be
and the result is valid; if it gives any settings otherwise, these are the defaults. -/
theorem load_layered [Codecs] (s : SettingsStore) (hfresh : s.loaded = none) (hreadable : s.Readable)
    (huser : Sectioned (documentEntries s.user)) (hproject : Sectioned (documentEntries s.project)) :
    (∀ read, ofValues s.valueOf = .ok read → read.check = .ok none → s.load.2.1 = .ok read) ∧
      ∀ settings, s.load.2.1 = .ok settings →
        (∀ read, ofValues s.valueOf = .ok read → read.check ≠ .ok none) → settings = {} := by
  have hsections := hasSections_entries huser hproject
  obtain ⟨data, hdata⟩ := s.exists_withEnvironment hsections
  have hread : ofEntries data = ofValues s.valueOf := by
    rw [ofEntries_eq (hasSections_withEnvironment hsections hdata),
      valueIn_withEnvironment huser hproject hdata]
  rw [load_eq hfresh hreadable, ok_bind hdata, ← hread]
  exact ⟨fun read => settle_of_valid, fun settings => eq_default_of_settle⟩

section
attribute [local instance] Codecs.standard

/-- The number of readers is that of the variable, the encoding that of the project's file, and the level that
of the user's file. -/
theorem three_layers_loaded :
    let s : SettingsStore := {
      userPath := "/home/.runedex/config.yaml", projectPath := "/ws/.runedex/config.yaml",
      user := some (.value (.map [("index", .map [("io_workers", .int 2), ("encoding", .text "ascii")]),
        ("logging", .map [("level", .text "debug")])])),
      project := some (.value (.map [("index", .map [("encoding", .text "latin-1")])])),
      environment := { ioWorkers := some "3" } }
    s.loaded = none ∧ s.Readable ∧ Sectioned (documentEntries s.user) ∧
      Sectioned (documentEntries s.project) ∧
      s.load.2.1 = .ok { scan := { ioWorkers := 3, encoding := .text "latin-1" }, log := ⟨"DEBUG"⟩ } := by
  intro s
  have hreadable : s.Readable := fun e => ⟨by simp [s], by simp [s]⟩
  have huser : Sectioned (documentEntries s.user) :=
    ⟨rfl, fun key d hd => by cases key <;> cases hd <;> exact ⟨_, rfl⟩⟩
  have hproject : Sectioned (documentEntries s.project) :=
    ⟨rfl, fun key d hd => by cases key <;> cases hd <;> exact ⟨_, rfl⟩⟩
  have hread : ofValues s.valueOf =
      .ok { scan := { ioWorkers := 3, encoding := .text "latin-1" }, log := ⟨"DEBUG"⟩ } := by
    unfold s
    rfl
  exact ⟨rfl, hreadable, huser, hproject, (load_layered s rfl hreadable huser hproject).1 _ hread rfl⟩

/-- Both files have a mapping in place of the patterns. It is not the project's that counts, but the two
merged. -/
theorem patterns_of_both_files_loaded :
    let s : SettingsStore := {
      userPath := "/home/.runedex/config.yaml", projectPath := "/ws/.runedex/config.yaml",
      user := some (.value (.map [("index", .map [("exclude_patterns", .map [("a", .int 1)])])])),
      project := some (.value (.map [("index", .map [("exclude_patterns", .map [("b", .int 1)])])])) }
    let topmost (key : Key) : Datum :=
      (((s.override? key).map .text).or ((at? (documentEntries s.project) key).or
        (at? (documentEntries s.user) key))).getD (datum {} key)
    s.loaded = none ∧ Sectioned (documentEntries s.user) ∧ Sectioned (documentEntries s.project) ∧
      ∃ read loaded, ofValues topmost = .ok read ∧ read.check = .ok none ∧ s.load.2.1 = .ok loaded ∧
        read.scan.excludePatterns = ["b"] ∧ loaded.scan.excludePatterns = ["a", "b"] := by
  intro s topmost
  have huser : Sectioned (documentEntries s.user) :=
    ⟨rfl, fun key d hd => by cases key <;> cases hd <;> exact ⟨_, rfl⟩⟩
  have hproject : Sectioned (documentEntries s.project) :=
    ⟨rfl, fun key d hd => by cases key <;> cases hd <;> exact ⟨_, rfl⟩⟩
  have hread : ofValues topmost = .ok { scan := { excludePatterns := ["b"] } } := by
    unfold topmost s
    rfl
  have hload : s.load.2.1 = .ok { scan := { excludePatterns := ["a", "b"] } } := by rfl
  exact ⟨rfl, huser, hproject, _, _, hread, rfl, hload, rfl, rfl⟩

end

end SettingsStore

end ScriptIndex
