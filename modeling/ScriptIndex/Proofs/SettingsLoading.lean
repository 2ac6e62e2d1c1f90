import ScriptIndex.Proofs.TableViews
import ScriptIndex.Settings.Store

/-! Loading settings. Values that do not fit or are invalid give way to the defaults, so settings that are
loaded are valid. But loading fails where something is wrong that nothing gives way to: a section that is no
mapping, a number that is out of range, an encoding that cannot be looked up or refuses every text, or a
variable over a section that is no mapping. -/
namespace ScriptIndex

namespace ScanSettings

def Searchable (s : ScanSettings) : Prop :=
  ∃ name : String, s.encoding = .text name ∧ Char.ofNat 0 ∉ name.toList

def Refused [Codecs] (s : ScanSettings) : Prop :=
  ∃ name codec, s.encoding = .text name ∧ Codecs.find? name = some codec ∧ codec.writes = false

/-- Whether the settings cannot be checked: there are too few readers and their number is too long to be
told, or there are enough and the encoding cannot be looked up or refuses the empty text. -/
def Uncheckable [Codecs] (s : ScanSettings) : Prop :=
  if s.ioWorkers < 1 then Datum.isShort s.ioWorkers = false else ¬ s.Searchable ∨ s.Refused

private theorem check_eq_error_iff [Codecs] {s : ScanSettings} :
    (∃ fault, s.check = .error fault) ↔ s.Uncheckable := by
  unfold check Uncheckable Searchable Refused
  split
  · cases Datum.isShort s.ioWorkers <;> simp
  · cases s.encoding with
    | text name =>
      by_cases hnull : Char.ofNat 0 ∈ name.toList
      · simp [hnull]
      · cases hfind : Codecs.find? name with
        | none => simp [hnull, hfind]
        | some codec => cases hwrites : codec.writes <;> simp [hnull, hfind, hwrites]
    | _ => simp

end ScanSettings

namespace Settings

theorem check_default [Codecs] : check {} = .ok none := by
  have hscan : ScanSettings.check {} = .ok none := by
    unfold ScanSettings.check
    rw [if_neg (by decide)]
    dsimp only
    rw [if_neg (by decide), Codecs.find?_utf8]
    rfl
  rw [check, hscan]
  rfl

/-- The scan settings decide whether settings can be checked. -/
private theorem check_eq_error_iff [Codecs] {s : Settings} :
    (∃ fault, s.check = .error fault) ↔ s.scan.Uncheckable := by
  rw [← ScanSettings.check_eq_error_iff]
  unfold check
  cases s.scan.check with
  | error fault => exact ⟨fun _ => ⟨fault, rfl⟩, fun _ => ⟨fault, rfl⟩⟩
  | ok invalid =>
    constructor
    · rintro ⟨fault, h⟩
      cases invalid <;> cases h
    · rintro ⟨fault, ⟨⟩⟩

def fault? {α : Type} : Except Fault α → Option Fault
  | .ok _ => none
  | .error fault => some fault

def value? (data : Datum.Entries) (group key : String) : Option Datum :=
  match data.lookup (.text group) with
  | some (.map entries) => entries.lookup (.text key)
  | _ => none

def settingFault? {α : Type} (data : Datum.Entries) (group key : String)
    (read : Datum → Except Fault α) : Option Fault :=
  (value? data group key).bind fun value => fault? (read value)

def faults (data : Datum.Entries) : List (Option Fault) :=
  [fault? (entriesUnder data "index"),
    settingFault? data "index" "exclude_patterns" patterns,
    settingFault? data "index" "io_workers" fun value => value.toInt.mapError .misfit,
    fault? (entriesUnder data "editor"),
    settingFault? data "editor" "debounce_seconds" fun value => value.toFloat.mapError .misfit,
    fault? (entriesUnder data "logging"),
    settingFault? data "logging" "level" fun value => value.toText.mapError .misfit]

def firstFault? (data : Datum.Entries) : Option Fault :=
  (faults data).findSome? id

/-- The entries of a section are those that have its values. -/
theorem lookup_of_entriesUnder {data entries : Datum.Entries} {group : String}
    (h : entriesUnder data group = .ok entries) (key : String) :
    entries.lookup (.text key) = value? data group key := by
  unfold entriesUnder at h
  unfold value?
  cases hgroup : data.lookup (.text group) with
  | none =>
    rw [hgroup] at h
    cases h
    rfl
  | some value =>
    rw [hgroup] at h
    dsimp only at h
    split at h
    · split at h
      · cases h
        rfl
      · cases h
    · rename_i hfalsy
      cases h
      cases value with
      | map entries =>
        have hempty : entries = [] := by simpa [Datum.isTruthy] using hfalsy
        rw [hempty]
      | _ => rfl

/-- A first step that fails is the first fault; behind one that does not, the rest decides. -/
private theorem fault?_bind {α β : Type} {x : Except Fault α} {next : α → Except Fault β}
    {rest : List (Option Fault)} (h : ∀ a, x = .ok a → fault? (next a) = rest.findSome? id) :
    fault? (x >>= next) = (fault? x :: rest).findSome? id := by
  cases x with
  | error fault => rfl
  | ok a => exact h a rfl

private theorem fault?_bind_setting {α β : Type} {value : Option Datum} {read : Datum → Except Fault α}
    {default : α} {next : α → Except Fault β} {rest : List (Option Fault)}
    (h : ∀ a, fault? (next a) = rest.findSome? id) :
    fault? (match value with
      | some value => read value >>= next
      | none => .ok default >>= next) =
      (value.bind (fun value => fault? (read value)) :: rest).findSome? id := by
  cases value with
  | none => exact h default
  | some value => exact fault?_bind fun a _ => h a

/-- Reading settings fails with the first thing that is wrong. -/
theorem fault?_ofEntries (data : Datum.Entries) : fault? (ofEntries data) = firstFault? data := by
  unfold ofEntries firstFault? faults settingFault?
  refine fault?_bind fun scan hscan => ?_
  rw [← lookup_of_entriesUnder hscan, ← lookup_of_entriesUnder hscan]
  refine fault?_bind_setting fun excludePatterns => ?_
  refine fault?_bind_setting fun ioWorkers => ?_
  refine fault?_bind fun editor heditor => ?_
  rw [← lookup_of_entriesUnder heditor]
  refine fault?_bind_setting fun debounce => ?_
  refine fault?_bind fun log hlog => ?_
  rw [← lookup_of_entriesUnder hlog]
  exact fault?_bind_setting fun level => rfl

def Fault.Escapes (fault : Fault) : Prop :=
  fault ≠ .misfit .kind ∧ fault ≠ .misfit .content

/-- Whether merged data gives no settings: the first thing that is wrong with it escapes, or nothing is wrong
with it and what is read cannot be checked. -/
def Unsettled [Codecs] (data : Datum.Entries) : Prop :=
  (∃ fault, firstFault? data = some fault ∧ fault.Escapes) ∨
    ∃ s, ofEntries data = .ok s ∧ s.scan.Uncheckable

/-- Merged data gives what is read from it, if that is valid, or else the defaults. -/
theorem settle_cases [Codecs] {data : Datum.Entries} {s : Settings} (h : (settle data).2 = .ok s) :
    s = {} ∨ ofEntries data = .ok s ∧ s.check = .ok none := by
  unfold settle at h
  split at h
  · cases h
    exact .inl rfl
  · cases h
    exact .inl rfl
  · cases h
  · rename_i read hread
    split at h
    · cases h
    · rename_i hcheck
      cases h
      exact .inr ⟨hread, hcheck⟩
    · cases h
      exact .inl rfl

/-- Settings that merged data gives are valid. -/
theorem check_of_settle [Codecs] {data : Datum.Entries} {s : Settings} (h : (settle data).2 = .ok s) :
    s.check = .ok none := by
  rcases settle_cases h with rfl | ⟨-, hcheck⟩
  · exact check_default
  · exact hcheck

private theorem settle_eq_error_iff [Codecs] {data : Datum.Entries} :
    (∃ fault, (settle data).2 = .error fault) ↔ Unsettled data := by
  unfold Unsettled
  rw [← fault?_ofEntries]
  unfold settle
  cases hread : ofEntries data with
  | error fault =>
    simp only [fault?, reduceCtorEq, false_and, exists_false, or_false]
    unfold Fault.Escapes
    split
    · rename_i hkind
      cases hkind
      simp
    · rename_i hcontent
      cases hcontent
      simp
    · rename_i hkind hcontent hfault
      cases hfault
      simp_all
    · rename_i hok
      cases hok
  | ok s =>
    simp only [fault?, reduceCtorEq, false_and, exists_false, false_or, Except.ok.injEq, exists_eq_left']
    rw [← check_eq_error_iff]
    cases s.check with
    | error fault => simp
    | ok invalid => cases invalid <;> simp

def Blocks (group : String) (value : Option String) (data : Datum.Entries) : Prop :=
  (value.filter (· ≠ "")).isSome = true ∧
    ∃ d, data.lookup (.text group) = some d ∧ ∀ entries, d ≠ .map entries

private theorem overlay_ok_iff {group : String} (key : String) {value : Option String}
    {data : Datum.Entries} :
    (∃ data', overlay group key value data = .ok data') ↔ ¬ Blocks group value data := by
  unfold overlay Blocks
  cases value.filter (· ≠ "") with
  | none => simp
  | some value =>
    cases data.lookup (.text group) with
    | none => simp
    | some d => cases d <;> simp

/-- A key that is the same as a text is the text. -/
theorem beq_text_iff {key : Datum.Key} {name : String} :
    (key == .text name) = true ↔ key = .text name := by
  constructor
  · intro h
    -- Only numbers are compared by what they stand for, and a text stands for none.
    have hnumber (n : Option Int) : ¬ (n.isSome && n == none) = true := by
      cases n <;> simp
    cases key with
    | text s => exact congrArg Datum.Key.text (beq_iff_eq.1 h)
    | null => cases h
    | moment m => cases h
    | bool b => exact absurd h (hnumber (some (if b then 1 else 0)))
    | int n => exact absurd h (hnumber (some n))
    | float x => exact absurd h (hnumber _)
  · rintro rfl
    exact beq_self_eq_true name

theorem text_beq_comm (name : String) (key : Datum.Key) :
    ((Datum.Key.text name : Datum.Key) == key) = (key == .text name) := by
  cases key with
  | text s => exact BEq.comm (a := name) (b := s)
  | float x =>
    change false = ((Datum.whole? x).isSome && Datum.whole? x == none)
    cases Datum.whole? x <;> rfl
  | _ => rfl

private theorem beq_text_congr {key other : Datum.Key} (h : (other == key) = true) (name : String) :
    (other == .text name) = (key == .text name) := by
  rw [Bool.eq_iff_iff, beq_text_iff, beq_text_iff]
  constructor
  · rintro rfl
    exact beq_text_iff.1 (text_beq_comm name key ▸ h)
  · rintro rfl
    exact beq_text_iff.1 h

/-- An assignment gives its key a value and leaves the others. -/
theorem lookup_assign (key : Datum.Key) (value : Datum) (data : Datum.Entries) (name : String) :
    (assign key value data).lookup (.text name) =
      if key == .text name then some value else data.lookup (.text name) := by
  induction data with
  | nil =>
    rw [assign, List.lookup_cons, text_beq_comm]
    cases key == .text name <;> rfl
  | cons entry data ih =>
    obtain ⟨other, old⟩ := entry
    unfold assign
    split
    · rename_i hsame
      simp only [List.lookup_cons, text_beq_comm, beq_text_congr hsame]
      cases key == .text name <;> rfl
    · rename_i hother
      simp only [List.lookup_cons, text_beq_comm, ih]
      by_cases hkey : key = .text name
      · subst hkey
        simp [hother, beq_text_iff.2]
      · simp [Bool.eq_false_iff.2 (mt beq_text_iff.1 hkey)]

theorem lookup_assign_text (key name : String) (value : Datum) (data : Datum.Entries) :
    (assign (.text key) value data).lookup (.text name) =
      if key = name then some value else data.lookup (.text name) := by
  have htext : ((Datum.Key.text key : Datum.Key) == .text name) = true ↔ key = name :=
    beq_text_iff.trans ⟨Datum.Key.text.inj, congrArg _⟩
  rw [lookup_assign]
  simp only [htext]

/-- A variable that is set is assigned to its setting, in the section as it is or in a new one. -/
theorem overlay_cases {group key : String} {value : Option String} {data data' : Datum.Entries}
    (h : overlay group key value data = .ok data') :
    value.filter (· ≠ "") = none ∧ data' = data ∨
      ∃ v entries, value.filter (· ≠ "") = some v ∧
        (∀ name, entries.lookup (.text name) = value? data group name) ∧
        data' = assign (.text group) (.map (assign (.text key) (.text v) entries)) data := by
  unfold overlay at h
  split at h
  · rename_i hnone
    cases h
    exact .inl ⟨hnone, rfl⟩
  · rename_i v hv
    unfold value?
    split at h
    · rename_i hsection
      cases h
      exact .inr ⟨v, [], hv, fun name => by rw [hsection]; rfl, rfl⟩
    · rename_i entries hsection
      cases h
      exact .inr ⟨v, entries, hv, fun name => by rw [hsection], rfl⟩
    · cases h

/-- A variable touches its section only. -/
private theorem lookup_overlay {group key other : String} {value : Option String}
    {data data' : Datum.Entries}
    (h : overlay group key value data = .ok data') (hne : group ≠ other) :
    data'.lookup (.text other) = data.lookup (.text other) := by
  rcases overlay_cases h with ⟨-, rfl⟩ | ⟨v, entries, -, -, rfl⟩
  · rfl
  · rw [lookup_assign_text, if_neg hne]

private theorem blocks_overlay {group key other : String} {value behind : Option String}
    {data data' : Datum.Entries} (h : overlay group key value data = .ok data') (hne : group ≠ other) :
    Blocks other behind data' ↔ Blocks other behind data := by
  unfold Blocks
  rw [lookup_overlay h hne]

def documentEntries : Option Document → Datum.Entries
  | some (.value (.map entries)) => entries
  | _ => []

private theorem layer_eq (path : String) {document : Option Document}
    (h : ∀ e, document ≠ some (.broken e)) :
    (layer path document).2 = .ok (documentEntries document) := by
  unfold layer documentEntries
  split
  · rfl
  · rfl
  · rfl
  · exact absurd rfl (h _)
  · rfl
  · rename_i d hd
    cases d with
    | map entries => exact absurd rfl (hd entries)
    | _ => dsimp only; split <;> rfl

end Settings

namespace SettingsStore
open Settings

/-- The environment can be laid over data unless a variable stands over a section that is no mapping. -/
theorem withEnvironment_ok_iff (s : SettingsStore) (data : Datum.Entries) :
    (∃ data', s.withEnvironment data = .ok data') ↔
      ¬ (Blocks "editor" s.environment.debounce data ∨ Blocks "index" s.environment.ioWorkers data ∨
        Blocks "logging" s.environment.logLevel data) := by
  simp only [withEnvironment, bind_eq_ok, not_or]
  constructor
  · rintro ⟨data₃, data₁, h₁, data₂, h₂, h₃⟩
    refine ⟨(overlay_ok_iff _).1 ⟨data₁, h₁⟩, ?_, ?_⟩
    · rw [← blocks_overlay h₁ (by decide)]
      exact (overlay_ok_iff _).1 ⟨data₂, h₂⟩
    · rw [← blocks_overlay h₁ (by decide), ← blocks_overlay h₂ (by decide)]
      exact (overlay_ok_iff _).1 ⟨data₃, h₃⟩
  · rintro ⟨heditor, hindex, hlogging⟩
    obtain ⟨data₁, h₁⟩ := (overlay_ok_iff "debounce_seconds").2 heditor
    rw [← blocks_overlay h₁ (by decide)] at hindex hlogging
    obtain ⟨data₂, h₂⟩ := (overlay_ok_iff "io_workers").2 hindex
    rw [← blocks_overlay h₂ (by decide)] at hlogging
    obtain ⟨data₃, h₃⟩ := (overlay_ok_iff "level").2 hlogging
    exact ⟨data₃, data₁, h₁, data₂, h₂, h₃⟩

def entries (s : SettingsStore) : Datum.Entries :=
  merge (merge [] (documentEntries s.user)) (documentEntries s.project)

/-- Whether the files can be passed over or have a value. -/
def Readable (s : SettingsStore) : Prop :=
  ∀ e, s.user ≠ some (.broken e) ∧ s.project ≠ some (.broken e)

/-- Why no settings can be loaded: a variable stands over a section that is no mapping, or the layers
together give no settings. -/
inductive Unloadable [Codecs] (s : SettingsStore) : Prop where
  | debounce : Blocks "editor" s.environment.debounce s.entries → Unloadable s
  | ioWorkers : Blocks "index" s.environment.ioWorkers s.entries → Unloadable s
  | level : Blocks "logging" s.environment.logLevel s.entries → Unloadable s
  | data {data : Datum.Entries} :
    s.withEnvironment s.entries = .ok data → Unsettled data → Unloadable s

private theorem layered_eq {s : SettingsStore} (h : s.Readable) :
    s.layered.2 = s.withEnvironment s.entries := by
  unfold layered entries
  have huser := layer_eq s.userPath fun e => (h e).1
  have hproject := layer_eq s.projectPath fun e => (h e).2
  cases hu : layer s.userPath s.user with
  | mk warnings user =>
    cases hp : layer s.projectPath s.project with
    | mk more project =>
      rw [hu] at huser
      rw [hp] at hproject
      dsimp only at huser hproject
      subst huser hproject
      rfl

/-- What is loaded for the first time is what the layers give. -/
theorem load_eq_layered [Codecs] {s : SettingsStore} (hfresh : s.loaded = none) :
    s.load.2.1 = s.layered.2 >>= fun data => (settle data).2 := by
  have hread : s.load.2.1 = s.read.2 := by
    unfold load
    rw [hfresh]
    dsimp only
    split
    · rename_i hs
      rw [hs]
    · rename_i hs
      rw [hs]
  rw [hread]
  unfold read
  cases hl : s.layered with
  | mk warnings data => cases data <;> rfl

/-- What is loaded from files that can be read is what the merged layers give. -/
theorem load_eq [Codecs] {s : SettingsStore} (hfresh : s.loaded = none) (h : s.Readable) :
    s.load.2.1 = s.withEnvironment s.entries >>= fun data => (settle data).2 := by
  rw [load_eq_layered hfresh, layered_eq h]

/-- Loading settings for the first time, from files that hold a value or can be passed over, gives valid
settings or none; and it gives none exactly if a variable stands over a section that is no mapping, or if
something is wrong with the merged layers that nothing gives way to. -/
theorem load_valid_or_unloadable [Codecs] (s : SettingsStore) (hfresh : s.loaded = none) (h : s.Readable) :
    (∀ settings, s.load.2.1 = .ok settings → settings.check = .ok none) ∧
      ((∃ settings, s.load.2.1 = .ok settings) ↔ ¬ s.Unloadable) := by
  rw [load_eq hfresh h]
  constructor
  · intro settings hsettings
    obtain ⟨data, -, hsettle⟩ := bind_eq_ok.1 hsettings
    exact check_of_settle hsettle
  · constructor
    · rintro ⟨settings, hsettings⟩ hunloadable
      obtain ⟨data, hdata, hsettle⟩ := bind_eq_ok.1 hsettings
      have hblocks := (s.withEnvironment_ok_iff s.entries).1 ⟨data, hdata⟩
      cases hunloadable with
      | debounce hb => exact hblocks (.inl hb)
      | ioWorkers hb => exact hblocks (.inr (.inl hb))
      | level hb => exact hblocks (.inr (.inr hb))
      | data hdata' hunsettled =>
        cases hdata.symm.trans hdata'
        obtain ⟨fault, hfault⟩ := settle_eq_error_iff.2 hunsettled
        cases hsettle.symm.trans hfault
    · intro hloadable
      obtain ⟨data, hdata⟩ := (s.withEnvironment_ok_iff s.entries).2 (by
        rintro (hb | hb | hb)
        · exact hloadable (.debounce hb)
        · exact hloadable (.ioWorkers hb)
        · exact hloadable (.level hb))
      cases hsettle : (settle data).2 with
      | error fault => exact absurd (.data hdata (settle_eq_error_iff.1 ⟨fault, hsettle⟩)) hloadable
      | ok settings => exact ⟨settings, bind_eq_ok.2 ⟨data, hdata, hsettle⟩⟩

section
attribute [local instance] Codecs.standard

/-- A level that there is not gives way to the defaults, together with the readers that the project's file
asks for. -/
theorem unknown_level_load_defaults :
    let s : SettingsStore := {
      userPath := "/home/.runedex/config.yaml", projectPath := "/ws/.runedex/config.yaml",
      project := some (.value (.map [("index", .map [("io_workers", .int 2)])])),
      environment := { logLevel := some "loud" } }
    s.loaded = none ∧ s.Readable ∧ ¬ s.Unloadable ∧ ∃ settings, s.load.2.1 = .ok settings ∧
      settings.scan.ioWorkers = 4 ∧ settings.log.level = "WARNING" ∧ settings.check = .ok none := by
  intro s
  have hreadable : s.Readable := fun e => ⟨by simp [s], by simp [s]⟩
  have hload : s.load.2.1 = .ok {} := by rfl
  obtain ⟨hvalid, hloadable⟩ := load_valid_or_unloadable s rfl hreadable
  exact ⟨rfl, hreadable, hloadable.1 ⟨{}, hload⟩, {}, hload, rfl, rfl, hvalid {} hload⟩

/-- A number stands where the project's file should have the index section: nothing is loaded. -/
theorem number_for_section_unloadable :
    let s : SettingsStore := {
      userPath := "/home/.runedex/config.yaml", projectPath := "/ws/.runedex/config.yaml",
      project := some (.value (.map [("index", .int 5)])) }
    s.loaded = none ∧ s.Readable ∧ s.load.2.1 = .error .notAMapping := by
  intro s
  exact ⟨rfl, fun e => ⟨by simp [s], by simp [s]⟩, rfl⟩

end

end SettingsStore

end ScriptIndex
