import ScriptIndex.Proofs.Capitals
import ScriptIndex.Proofs.SettingsLayers
import ScriptIndex.Settings.Files

/-! Changing a setting. All settings are saved as they hold where they are changed, so with no variable set
they are loaded again as they were there, but for the one that was changed. A setting that is refused changes
no file. Since what a variable gives is saved too, the settings of the files alone can change together with
the one that is set. -/
namespace ScriptIndex

namespace Settings

/-- Whether settings are as loading gives them: they are valid, and the level was put in capitals. -/
structure Proper [Codecs] (s : Settings) : Prop where
  valid : s.check = .ok none
  raised : ∃ level, s.log.level = Text.upper level

private theorem check_eq_none_iff [Codecs] {s : Settings} :
    s.check = .ok none ↔ s.scan.check = .ok none ∧ s.editor.check = none ∧ s.log.check = none := by
  unfold check
  cases s.scan.check with
  | error fault => exact ⟨nofun, nofun⟩
  | ok invalid =>
    cases invalid with
    | none =>
      change Except.ok (s.editor.check.or s.log.check) = .ok none ↔ _
      simp
    | some invalid =>
      change Except.ok (some invalid) = .ok none ↔ _
      simp

private theorem text_of_check [Codecs] {s : ScanSettings} (h : s.check = .ok none) : ∃ name, s.encoding =
    .text name := by
  unfold ScanSettings.check at h
  split at h
  · split at h <;> cases h
  · split at h
    · rename_i name hname
      exact ⟨name, hname⟩
    · cases h

/-- A level that is valid is ASCII, so its capitals are the level. -/
theorem Proper.capitals [Codecs] {s : Settings} (h : s.Proper) : Text.upper s.log.level = s.log.level := by
  have hascii : ∀ level ∈ levels, level.toList.all (·.toNat < 128) = true := by decide +kernel
  obtain ⟨level, hlevel⟩ := h.raised
  have hvalid := (check_eq_none_iff.1 h.valid).2.2
  unfold LogSettings.check at hvalid
  split at hvalid
  · rename_i hknown
    rw [hlevel] at hknown ⊢
    have hall := List.all_eq_true.1 (hascii _ (List.contains_iff_mem.1 hknown))
    exact Text.upper_upper_of_ascii fun c hc => of_decide_eq_true (hall c hc)
  · cases hvalid

private theorem proper_default [Codecs] : Proper {} :=
  ⟨check_default, "warning", by decide +kernel⟩

/-- What follows on a setting is done with some value. -/
private theorem exists_of_setting {α β : Type} {value : Option Datum} {read : Datum → Except Fault α}
    {default : α} {next : α → Except Fault β} {b : β}
    (h : (match value with
      | some value => read value >>= next
      | none => .ok default >>= next) = .ok b) : ∃ a, next a = .ok b := by
  cases value with
  | none => exact ⟨default, h⟩
  | some value =>
    obtain ⟨a, -, ha⟩ := bind_eq_ok.1 h
    exact ⟨a, ha⟩

private theorem raised_of_ofEntries {data : Datum.Entries} {s : Settings} (h : ofEntries data = .ok s) :
    ∃ level, s.log.level = Text.upper level := by
  obtain ⟨scan, -, h⟩ := bind_eq_ok.1 h
  obtain ⟨excludePatterns, h⟩ := exists_of_setting h
  obtain ⟨ioWorkers, h⟩ := exists_of_setting h
  obtain ⟨editor, -, h⟩ := bind_eq_ok.1 h
  obtain ⟨debounce, h⟩ := exists_of_setting h
  obtain ⟨log, -, h⟩ := bind_eq_ok.1 h
  obtain ⟨level, h⟩ := exists_of_setting h
  cases h
  exact ⟨level, rfl⟩

private theorem proper_of_settle [Codecs] {data : Datum.Entries} {s : Settings}
    (h : (settle data).2 = .ok s) :
    s.Proper := by
  rcases settle_cases h with rfl | ⟨hread, hvalid⟩
  · exact proper_default
  · exact ⟨hvalid, raised_of_ofEntries hread⟩

/-- Settings are read from their plain values as they were. -/
private theorem Proper.ofValues_datum [Codecs] {s : Settings} (h : s.Proper) : ofValues s.datum =
    .ok s := by
  have hpatterns : patterns (s.datum .excludePatterns) = .ok s.scan.excludePatterns := by
    have htexts : (s.scan.excludePatterns.map Datum.text).mapM Datum.toText =
        (.ok s.scan.excludePatterns : Except Datum.Misfit _) := by
      induction s.scan.excludePatterns with
      | nil => rfl
      | cons pattern rest ih =>
        rw [List.map_cons, List.mapM_cons, ih]
        rfl
    change Except.mapError Fault.misfit ((s.scan.excludePatterns.map Datum.text).mapM Datum.toText) = _
    rw [htexts]
    rfl
  refine (ok_bind hpatterns _).trans ?_
  change Except.ok { s with log := ⟨Text.upper s.log.level⟩ } = Except.ok s
  rw [h.capitals]

private theorem at?_toEntries (s : Settings) (key : Key) : at? s.toEntries key = some (s.datum key) := by
  cases key <;> rfl

/-- No setting is a mapping, so a plain value that is laid over another stands. -/
private theorem Proper.laid_datum [Codecs] {s : Settings} (h : s.Proper) (under : Option Datum)
    (key : Key) :
    laid under (some (s.datum key)) = some (s.datum key) := by
  obtain ⟨name, hname⟩ := text_of_check (check_eq_none_iff.1 h.valid).1
  rw [laid_some]
  cases key with
  | encoding =>
    rw [datum, hname]
    rfl
  | _ => rfl

private theorem Proper.sectioned [Codecs] {s : Settings} (h : s.Proper) : Sectioned s.toEntries where
  once := by
    obtain ⟨name, hname⟩ := text_of_check (check_eq_none_iff.1 h.valid).1
    have hpatterns : (Datum.list (s.scan.excludePatterns.map .text)).keysOnce = true :=
      Datum.keysOnce_list_iff.2 (List.forall_mem_map.2 fun pattern _ => rfl)
    rw [toEntries, hname]
    simp only [Datum.keysOnce_map_iff, List.forall_mem_cons]
    exact ⟨of_decide_eq_true rfl, ⟨of_decide_eq_true rfl, hpatterns, rfl, rfl, nofun⟩,
      ⟨of_decide_eq_true rfl, rfl, nofun⟩, ⟨of_decide_eq_true rfl, rfl, nofun⟩, nofun⟩
  sections := fun key d hd => by cases key <;> cases hd <;> exact ⟨_, rfl⟩

/-- Whether a text can be read as a setting has nothing to do with the other settings. -/
private theorem isNone_with? (key : Key) (value : String) (s t : Settings) :
    (with? key value s).isNone = (with? key value t).isNone := by
  cases key <;> simp [with?]

/-- Where one setting is changed, the others stay. -/
private theorem datum_of_with? {key : Key} {value : String} {old new : Settings}
    (h : with? key value old = some new) {other : Key} (hne : other ≠ key) :
    new.datum other = old.datum other := by
  cases key with
  | excludePatterns | encoding | level =>
    cases h
    cases other <;> first | rfl | exact absurd rfl hne
  | ioWorkers | debounce =>
    obtain ⟨_, -, rfl⟩ := Option.map_eq_some_iff.1 h
    cases other <;> first | rfl | exact absurd rfl hne

private theorem Proper.of_with? [Codecs] {key : Key} {value : String} {old new : Settings}
    (hold : old.Proper)
    (h : with? key value old = some new) (hcheck : checkSection key new = .ok none) : new.Proper := by
  obtain ⟨hscan, heditor, hlog⟩ := check_eq_none_iff.1 hold.valid
  cases key with
  | excludePatterns | encoding =>
    cases h
    exact ⟨check_eq_none_iff.2 ⟨hcheck, heditor, hlog⟩, hold.raised⟩
  | ioWorkers =>
    obtain ⟨n, -, rfl⟩ := Option.map_eq_some_iff.1 h
    exact ⟨check_eq_none_iff.2 ⟨hcheck, heditor, hlog⟩, hold.raised⟩
  | debounce =>
    obtain ⟨x, -, rfl⟩ := Option.map_eq_some_iff.1 h
    exact ⟨check_eq_none_iff.2 ⟨hscan, Except.ok.inj hcheck, hlog⟩, hold.raised⟩
  | level =>
    cases h
    exact ⟨check_eq_none_iff.2 ⟨hscan, heditor, Except.ok.inj hcheck⟩, value, rfl⟩

end Settings

namespace SettingsStore
open Settings

/-- The store as it is found afresh when no variable is set. -/
def bare (s : SettingsStore) : SettingsStore :=
  { s with environment := {}, loaded := none }

private theorem override?_bare (s : SettingsStore) (key : Key) : s.bare.override? key = none := by
  cases key <;> rfl

/-- Settings that are saved in the project's file are those that are loaded when no variable is set. -/
theorem load_saved [Codecs] {s : SettingsStore} {settings : Settings} (hsettings : settings.Proper)
    (hproject : s.project = some (.value settings.toDatum)) (huser : ∀ e, s.user ≠ some (.broken e))
    (hfresh : s.loaded = none) (hbare : ∀ key, s.override? key = none) :
    s.load.2.1 = .ok settings := by
  have hreadable : s.Readable := fun e => ⟨huser e, by rw [hproject]; nofun⟩
  have hentries : documentEntries s.project = settings.toEntries := by
    rw [hproject]
    rfl
  have hsections : HasSections s.entries := by
    rw [entries, hentries]
    exact hasSections_merge hsettings.sectioned fun key d hnone => by cases key <;> cases hnone
  obtain ⟨data, hdata⟩ := s.exists_withEnvironment hsections
  have hvalues : valueIn data = settings.datum := by
    funext key
    rw [valueIn, at?_withEnvironment hdata, hbare, entries, hentries, at?_merge hsettings.sectioned,
      at?_toEntries, hsettings.laid_datum]
    rfl
  rw [load_eq hfresh hreadable, ok_bind hdata]
  refine settle_of_valid ?_ hsettings.valid
  rw [ofEntries_eq (hasSections_withEnvironment hsections hdata), hvalues, hsettings.ofValues_datum]

private theorem withEnvironment_of_bare {s : SettingsStore} (h : ∀ key, s.override? key = none)
    (data : Datum.Entries) : s.withEnvironment data = .ok data := by
  have hoverlay {group key : String} {value : Option String} (hnone : value.filter (· ≠ "") = none) :
      overlay group key value data = .ok data := by
    unfold overlay
    rw [hnone]
  unfold withEnvironment
  rw [ok_bind (hoverlay (h .debounce)), ok_bind (hoverlay (h .ioWorkers))]
  exact hoverlay (h .level)

/-- Files that settings are loaded from have a value or can be passed over. -/
private theorem readable_of_load [Codecs] {s : SettingsStore} (hfresh : s.loaded = none)
    {settings : Settings}
    (h : s.load.2.1 = .ok settings) : s.Readable := by
  rw [load_eq_layered hfresh] at h
  obtain ⟨data, hdata, -⟩ := bind_eq_ok.1 h
  unfold layered at hdata
  intro e
  constructor
  · intro huser
    rw [huser] at hdata
    cases hdata
  · intro hproject
    rw [hproject] at hdata
    split at hdata <;> cases hdata

private theorem proper_of_load [Codecs] {s : SettingsStore} (hfresh : s.loaded = none) {settings : Settings}
    (h : s.load.2.1 = .ok settings) : settings.Proper := by
  rw [load_eq hfresh (readable_of_load hfresh h)] at h
  obtain ⟨data, -, hsettle⟩ := bind_eq_ok.1 h
  exact proper_of_settle hsettle

/-- Loading leaves the files as they are. -/
theorem files_of_load [Codecs] (s : SettingsStore) : s.load.2.2.user = s.user ∧ s.load.2.2.project =
    s.project := by
  unfold load
  split
  · exact ⟨rfl, rfl⟩
  · split <;> exact ⟨rfl, rfl⟩

/-- A change saves the settings that were loaded with one of them read anew, if the section of that one is
valid; or else it saves nothing. -/
theorem set_cases [Codecs] (s : SettingsStore) (key value : String) (scope : Scope) :
    (∃ k old new, Key.ofText? key = some k ∧ s.load.2.1 = .ok old ∧ with? k value old = some new ∧
        checkSection k new = .ok none ∧ (s.set key value scope).2 = (.ok none, s.load.2.2.save scope new)) ∨
      (s.set key value scope).2.1 ≠ .ok none ∧
        ((s.set key value scope).2.2 = s ∨ (s.set key value scope).2.2 = s.load.2.2) := by
  unfold set
  cases hkey : Key.ofText? key with
  | none => exact .inr ⟨nofun, .inl rfl⟩
  | some k =>
    dsimp only
    split
    · exact .inr ⟨nofun, .inl rfl⟩
    · rename_i hreads
      split
      · rename_i hload
        exact .inr ⟨nofun, .inr (by rw [hload])⟩
      · rename_i warnings old s' hload
        obtain ⟨new, hnew⟩ : ∃ new, with? k value old = some new := by
          rw [isNone_with? k value {} old, Option.isNone_iff_eq_none] at hreads
          exact Option.ne_none_iff_exists'.1 hreads
        rw [hnew, Option.getD_some]
        cases hcheck : checkSection k new with
        | error fault => exact .inr ⟨nofun, .inr (by rw [hload])⟩
        | ok invalid =>
          cases invalid with
          | some invalid => exact .inr ⟨nofun, .inr (by rw [hload])⟩
          | none => exact .inl ⟨k, old, new, rfl, by rw [hload], hnew, hcheck, by rw [hload]⟩

/-- Where nothing is saved, nothing is written. -/
private theorem setOnDisk_of_ne [Codecs] (d : Disk) (file : Path) {s : SettingsStore}
    {key value : String} {scope : Scope}
    (h : (s.set key value scope).2.1 ≠ .ok none) :
    setOnDisk d file key value scope s = (d, s.set key value scope) := by
  unfold setOnDisk
  split
  · rename_i hs
    rw [hs] at h
    exact absurd rfl h
  · rename_i hs
    rw [hs]

/-- Where settings are saved, it is these that are written; or else the disk is at fault. -/
private theorem setOnDisk_of_saved [Codecs] (d : Disk) (file : Path) {s changed : SettingsStore}
    {key value : String}
    {scope : Scope} {settings : Settings}
    (hset : (s.set key value scope).2 = (.ok none, changed)) (hsaved : changed.loaded = some settings) :
    writeFile d file settings = ((setOnDisk d file key value scope s).1, .ok ()) ∧
        (setOnDisk d file key value scope s).2.2 = (.ok none, changed) ∨
      ∃ e, writeFile d file settings = ((setOnDisk d file key value scope s).1, .error e) ∧
        (setOnDisk d file key value scope s).2.2.1 = .error (.source (.disk e)) := by
  cases hs : s.set key value scope with
  | mk warnings answer =>
    rw [hs] at hset
    dsimp only at hset
    subst hset
    unfold setOnDisk
    rw [hs]
    dsimp only
    rw [hsaved, Option.getD_some]
    split
    · rename_i hwrite
      exact .inl ⟨hwrite, rfl⟩
    · rename_i hwrite
      exact .inr ⟨_, hwrite, rfl⟩

/-- With no variable set, the store as it is found afresh gives the same settings. -/
private theorem load_bare [Codecs] {s : SettingsStore} (hfresh : s.loaded = none) (hreadable : s.Readable)
    (hbare : ∀ key, s.override? key = none) : s.bare.load.2.1 = s.load.2.1 := by
  have hfiles : s.bare.Readable := hreadable
  rw [load_eq rfl hfiles, load_eq hfresh hreadable, withEnvironment_of_bare hbare,
    withEnvironment_of_bare s.override?_bare]
  rfl

/-- Changing a setting in the project's file, for the first time that settings are needed, changes it alone:
with no variable set, what is loaded from the changed files is what was loaded before, but for that setting.
What was loaded before had the variables over the files; if none is set, it was what the files alone give. A
setting that is refused changes no file. -/
theorem setOnDisk_changes_one [Codecs] (d : Disk) (file : Path) (key value : String) {s : SettingsStore}
    (hfresh : s.loaded = none) :
    let done := setOnDisk d file key value .project s
    (done.2.2.1 = .ok none →
        ∃ k old new, Key.ofText? key = some k ∧ s.load.2.1 = .ok old ∧ with? k value old = some new ∧
          writeFile d file new = (done.1, .ok ()) ∧ done.2.2.2.bare.load.2.1 = .ok new ∧
          (∀ other ≠ k, new.datum other = old.datum other) ∧
          ((∀ key, s.override? key = none) → s.bare.load.2.1 = .ok old)) ∧
      ∀ refusal, done.2.2.1 = .ok (some refusal) →
        done.1 = d ∧ done.2.2.2.user = s.user ∧ done.2.2.2.project = s.project := by
  intro done
  obtain ⟨huser, hproject⟩ := s.files_of_load
  rcases s.set_cases key value .project with
    ⟨k, old, new, hkey, hold, hnew, hcheck, hset⟩ | ⟨hkept, hstore⟩
  · have hreadable := readable_of_load hfresh hold
    have hproper := (proper_of_load hfresh hold).of_with? hnew hcheck
    have hdone : writeFile d file new = (done.1, .ok ()) ∧ done.2.2 = (.ok none, _) ∨
        ∃ e, writeFile d file new = (done.1, .error e) ∧ done.2.2.1 = .error (.source (.disk e)) :=
      setOnDisk_of_saved d file hset rfl
    rcases hdone with ⟨hwrite, hafter⟩ | ⟨e, -, hfault⟩
    · rw [hafter]
      refine ⟨fun _ => ⟨k, old, new, hkey, hold, hnew, hwrite, ?_, fun _ => datum_of_with? hnew, ?_⟩, nofun⟩
      · exact load_saved hproper rfl (fun e => huser ▸ (hreadable e).1) rfl (override?_bare _)
      · exact fun hbare => (load_bare hfresh hreadable hbare).trans hold
    · rw [hfault]
      exact ⟨nofun, nofun⟩
  · have hdone : done = (d, s.set key value .project) := setOnDisk_of_ne d file hkept
    rw [hdone]
    refine ⟨fun hok => absurd hok hkept, fun refusal _ => ⟨rfl, ?_⟩⟩
    dsimp only
    rcases hstore with hstore | hstore <;> rw [hstore]
    · exact ⟨rfl, rfl⟩
    · exact ⟨huser, hproject⟩

/-- In the root of an empty disk there is room for a settings file. -/
private theorem writeBelow_empty (content : List UInt8) :
    (({} : Disk).writeBelow [".runedex", "config.yaml"] content).2 = .ok () := by
  let made : Disk := { nodes := Std.ExtTreeMap.insert ∅ [".runedex"] .directory }
  have hmade : ({} : Disk).makeDirectories [".runedex"] = (made, .ok ()) := by
    have hlocate (d : Disk) : d.locate [".runedex"] = .ok [".runedex"] := by
      unfold Disk.locate
      rfl
    have hfree : ({} : Disk).node? [".runedex"] = none := by simp [Disk.node?]
    rw [Disk.makeDirectories, Disk.ensureDirectory, Disk.makeDirectory, hlocate]
    dsimp only [Bind.bind, Except.bind]
    rw [hfree]
    rfl
  have hlocate : made.locate [".runedex", "config.yaml"] = .ok [".runedex", "config.yaml"] := by
    have hdirectory : made.node? [".runedex"] = some .directory := by simp [Disk.node?, made]
    change made.enter [".runedex"] "config.yaml" = _
    rw [Disk.enter, hdirectory]
    rfl
  have hfile : made.isDirectory [".runedex", "config.yaml"] = false := by
    simp [Disk.isDirectory, Disk.node?, made]
  have hparent : [".runedex", "config.yaml"].dropLast = [".runedex"] := rfl
  rw [Disk.writeBelow, hparent, hmade]
  simp [Disk.write, hlocate, hfile, Bind.bind, Except.bind, pure, Except.pure]

section
attribute [local instance] Codecs.standard

/-- The project's file has a number of readers, and the user's file a level. The number is changed, and the
level stays. -/
theorem readers_changed_level_kept :
    let s : SettingsStore := {
      userPath := "/home/.runedex/config.yaml", projectPath := "/.runedex/config.yaml",
      user := some (.value (.map [("logging", .map [("level", .text "debug")])])),
      project := some (.value (.map [("index", .map [("io_workers", .int 2)])])) }
    let done := setOnDisk {} (settingsPath (Path.parse "/")) "index.io_workers" "8" .project s
    s.loaded = none ∧ done.2.2.1 = .ok none ∧ ∃ new, done.2.2.2.bare.load.2.1 = .ok new ∧
      new.datum .ioWorkers = .int 8 ∧ new.datum .level = .text "DEBUG" := by
  intro s done
  have hold : s.load.2.1 = .ok { scan := { ioWorkers := 2 }, log := ⟨"DEBUG"⟩ } := by
    unfold s
    rfl
  have hset : (s.set "index.io_workers" "8" .project).2 =
      (.ok none, s.load.2.2.save .project { scan := { ioWorkers := 8 }, log := ⟨"DEBUG"⟩ }) := by
    unfold s
    rfl
  have hok : done.2.2.1 = .ok none := by
    rcases setOnDisk_of_saved {} (settingsPath (Path.parse "/")) hset rfl with ⟨-, h⟩ | ⟨e, hwrite, -⟩
    · exact congrArg Prod.fst h
    · exact nomatch (congrArg Prod.snd hwrite).symm.trans (writeBelow_empty _)
  obtain ⟨k, old, new, hkey, hold', hnew, -, hload, hothers, -⟩ :=
    (setOnDisk_changes_one {} (settingsPath (Path.parse "/")) "index.io_workers" "8" rfl).1 hok
  cases hold.symm.trans hold'
  cases hkey
  cases hnew
  exact ⟨rfl, hok, _, hload, rfl, hothers .level (by decide)⟩

/-- A variable gives eight readers where the files give none, and it is the level that is set. Eight readers
are saved with it: without the variable, the number of readers is another one than before. -/
theorem readers_of_variable_saved :
    let s : SettingsStore := {
      userPath := "/home/.runedex/config.yaml", projectPath := "/.runedex/config.yaml",
      environment := { ioWorkers := some "8" } }
    let done := s.set "logging.level" "debug" .project
    s.loaded = none ∧ done.2.1 = .ok none ∧ ∃ before after, s.bare.load.2.1 = .ok before ∧
      done.2.2.bare.load.2.1 = .ok after ∧ before.datum .ioWorkers = .int 4 ∧
      after.datum .ioWorkers = .int 8 := by
  intro s done
  have hbefore : s.bare.load.2.1 = .ok {} := by
    unfold s
    rfl
  have hafter : done.2.2.bare.load.2.1 = .ok { scan := { ioWorkers := 8 }, log := ⟨"DEBUG"⟩ } := by
    unfold done s
    rfl
  exact ⟨rfl, rfl, _, _, hbefore, hafter, rfl, rfl⟩

end

end SettingsStore

end ScriptIndex
