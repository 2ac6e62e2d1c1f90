import ScriptIndex.Proofs.Classification

namespace ScriptIndex

namespace Rules

def OnHeader (ctx : WordContext) : Prop :=
  ctx.dialect = "rs2" ∧ LineShape.isTriggerLine ctx.line.text = true

private theorem command_declares {i : Index} {l : FileLine} {w : Word} {r : Role}
    (h : command (l.context w) i = some r) (hd : r.declares = true) :
    OnHeader (l.context w) ∧ w.index = 1 := by
  rcases command_eq_some h with rfl | ⟨-, hname, hindex, htrigger⟩
  · cases hd
  · refine ⟨⟨?_, htrigger⟩, hindex⟩
    have hname : (Path.parse l.file).name = engineFile := hname
    have hdialect : (l.context w).dialect = (FileName.ofFile l.file).dialect := rfl
    rw [hdialect, FileName.ofFile, hname]
    decide +kernel

/-- A header tells of its first word the name behind it. Of its second word it tells the category of scripts
or, if the word starts with an underscore, what the scripts apply to. -/
theorem trigger_eq_some {ctx : WordContext} {r : Role} (h : trigger ctx = some r) : OnHeader ctx ∧
    ((∃ script, r = { Role.reference .trigger with extra := [("triggerName", .text script)] }) ∨
      (∃ target name, r = { Role.reference .category with
        extra := [("matchId", .text target), ("categoryName", .text name)] }) ∨
      ctx.word.index = 1 ∧ ∃ name found, Trigger.ofName? name = some found ∧
        r = { category := found.category, declares := found.declares }) := by
  unfold trigger at h
  split at h
  · rename_i hheader
    refine ⟨⟨hheader.1, hheader.2.2⟩, ?_⟩
    split at h
    · rename_i first second rest _
      split at h
      · cases h
      · rename_i found hfound
        split at h
        · cases h
          exact .inl ⟨second.value, rfl⟩
        · have hindex : ctx.word.index = 1 := by
            have := hheader.2.1
            omega
          split at h
          · cases h
            exact .inr (.inl ⟨_, _, rfl⟩)
          · cases h
            exact .inr (.inr ⟨hindex, first.value, found, hfound, rfl⟩)
    · cases h
  · cases h

/-- What a header declares is its second word, in the category of a trigger that declares. -/
theorem trigger_declares {ctx : WordContext} {r : Role} (h : trigger ctx = some r)
    (hd : r.declares = true) : OnHeader ctx ∧ ctx.word.index = 1 ∧
      ∃ name found, Trigger.ofName? name = some found ∧ found.declares = true ∧
        r.category = found.category := by
  obtain ⟨hon, ⟨script, rfl⟩ | ⟨target, name, rfl⟩ | ⟨hindex, name, found, hfound, rfl⟩⟩ :=
    trigger_eq_some h
  · cases hd
  · cases hd
  · exact ⟨hon, hindex, name, found, hfound, hd, rfl⟩

theorem sigil_eq_some {ctx : WordContext} {r : Role} (h : sigil ctx = some r) :
    (∃ c, r = .reference c) ∨ r = .declaration .constant ∧ ctx.dialect = "constant" := by
  unfold sigil at h
  split at h
  · cases h
    split
    · rename_i hdialect
      exact .inr ⟨rfl, hdialect⟩
    · exact .inl ⟨_, rfl⟩
  · cases h
    exact .inl ⟨_, rfl⟩
  · split at h <;> cases h
    exact .inl ⟨_, rfl⟩
  · cases h
    exact .inl ⟨_, rfl⟩
  · split at h <;> cases h
    exact .inl ⟨_, rfl⟩
  · cases h

theorem sigil_declares {ctx : WordContext} {r : Role} (h : sigil ctx = some r)
    (hd : r.declares = true) : r.category = .constant ∧ ¬ OnHeader ctx := by
  rcases sigil_eq_some h with ⟨c, rfl⟩ | ⟨rfl, hdialect⟩
  · cases hd
  · exact ⟨rfl, fun hheader => absurd (hdialect.symm.trans hheader.1) (by decide)⟩

theorem pack_eq_some {ctx : WordContext} {r : Role} (h : pack ctx = some r) :
    r = .reference .globalVar ∨ r = .reference .component ∨
      ∃ keyword, r = .reference (Category.ofKeyword keyword) := by
  unfold pack at h
  split at h
  · cases h
    split
    · exact .inl rfl
    · split
      · exact .inr (.inl rfl)
      · exact .inr (.inr ⟨_, rfl⟩)
  · cases h

theorem literal_eq_some {ctx : WordContext} {r : Role} (h : literal ctx = some r) :
    r = .reference .coordinates ∨ r = .reference .color ∨ r = .reference .number := by
  unfold literal at h
  dsimp only at h
  split at h
  · cases h
    exact .inl rfl
  · split at h
    · cases h
      exact .inr (.inl rfl)
    · split at h <;> cases h
      exact .inr (.inr rfl)

theorem localVar_eq_some {ctx : WordContext} {r : Role} (h : localVar ctx = some r) :
    r = .reference .localVar ∨ r = .declaration .localVar := by
  unfold localVar at h
  split at h
  · split at h
    · cases h
      exact .inl rfl
    · dsimp only at h
      split at h <;> split at h <;> cases h <;> simp
  · cases h

private theorem slots?_declares {key fileType : String} {slots : List Slot} {slot : Slot}
    (h : ConfigKey.slots? key fileType = some slots) (hm : slot ∈ slots)
    (hd : slot.declares = true) : slot.keyword = "dbcolumn" := by
  have hfixed : ∀ p ∈ ConfigKey.fixed, ∀ slot ∈ p.2, slot.declares = true →
      slot.keyword = "dbcolumn" := by decide
  have hpatterns : ∀ p ∈ ConfigKey.patterns, ∀ slot ∈ p.2.1, slot.declares = false := by decide
  unfold ConfigKey.slots? at h
  split at h
  · rename_i found hf
    cases h
    obtain ⟨front, back, hsplit, -⟩ := List.lookup_eq_some_iff.1 hf
    exact hfixed (key, slots) (by rw [hsplit]; simp) slot hm hd
  · obtain ⟨p, hp, rfl⟩ := Option.map_eq_some_iff.1 h
    have hn := hpatterns p (List.mem_of_find?_eq_some hp) slot hm
    rw [hd] at hn
    cases hn

private theorem declaredIn?_eq_some {dialect : String} {c : Category} (h : declaredIn? dialect = some c) :
    c ≠ .command ∧ dialect ≠ "rs2" := by
  obtain ⟨front, back, hsplit, -⟩ := List.lookup_eq_some_iff.1 h
  have hall : ∀ p ∈ front ++ (dialect, c) :: back, p.2 ≠ .command ∧ p.1 ≠ "rs2" := by
    rw [← hsplit]
    decide
  exact hall (dialect, c) (by simp)

/-- A line with a script header is no config line. -/
private theorem not_isTriggerLine_of_isConfigLine {line : Line} (h : LineShape.isConfigLine line = true) :
    LineShape.isTriggerLine line = false := by
  cases line with
  | nil => rfl
  | cons c rest =>
    by_cases hc : c = '['
    · subst hc
      have hword : Text.isWordChar '[' = false := by decide
      simp [LineShape.isConfigLine, LineShape.afterRun?, hword] at h
    · simp [LineShape.isTriggerLine, LineShape.after?, hc]

/-- A name in brackets is declared in the category of the dialect. Of the values on a line some are looked up
and only referred to; the key of the line has slots for the others. -/
theorem config_eq_some [KeyOrder] {ctx : WordContext} {i : Index} {r : Role} (h : config ctx i = some r) :
    (∃ c, r = .reference c) ∨ (∃ c, declaredIn? ctx.dialect = some c ∧ r = .declaration c) ∨
      LineShape.isConfigLine ctx.line.text = true ∧ ∃ key slots, ∃ slot ∈ slots,
        ConfigKey.slots? key ctx.dialect = some slots ∧
          r = { category := Category.ofKeyword slot.keyword, declares := slot.declares } := by
  unfold config at h
  split at h
  · obtain ⟨c, hc, rfl⟩ := Option.map_eq_some_iff.1 h
    exact .inr (.inl ⟨c, hc, rfl⟩)
  · unfold configLine at h
    split at h
    · rename_i key _ hline _
      split at h
      · cases h
        exact .inl ⟨_, rfl⟩
      · split at h
        · cases h
          exact .inl (paramLine_reference ctx i)
        · cases h
          exact .inl (valLine_reference ctx i)
        · cases h
          exact .inl (dataLine_reference ctx i)
        · simp only [Option.bind_eq_bind, Option.bind_eq_some_iff] at h
          obtain ⟨slots, hslots, place, -, slot, hslot, hr⟩ := h
          cases hr
          exact .inr (.inr ⟨hline, _, slots, slot, List.mem_of_getElem? hslot, hslots, rfl⟩)
    · cases h

/-- A config line declares columns only. -/
theorem config_declares_cases [KeyOrder] {ctx : WordContext} {i : Index} {r : Role}
    (h : config ctx i = some r) (hd : r.declares = true) :
    declaredIn? ctx.dialect = some r.category ∨
      LineShape.isConfigLine ctx.line.text = true ∧ r.category = Category.ofKeyword "dbcolumn" := by
  obtain ⟨c, rfl⟩ | ⟨c, hc, rfl⟩ | ⟨hline, key, slots, slot, hslot, hslots, rfl⟩ := config_eq_some h
  · cases hd
  · exact .inl hc
  · exact .inr ⟨hline, congrArg Category.ofKeyword (slots?_declares hslots hslot hd)⟩

/-- A config line declares no command, and it has no script header. -/
theorem config_declares [KeyOrder] {ctx : WordContext} {i : Index} {r : Role} (h : config ctx i = some r)
    (hd : r.declares = true) : r.category ≠ .command ∧ ¬ OnHeader ctx := by
  rcases config_declares_cases h hd with hc | ⟨hline, hc⟩
  · obtain ⟨hne, hdialect⟩ := declaredIn?_eq_some hc
    exact ⟨hne, fun hheader => hdialect hheader.1⟩
  · refine ⟨by rw [hc]; decide, fun hheader => ?_⟩
    have hn := not_isTriggerLine_of_isConfigLine hline
    rw [hheader.2] at hn
    cases hn

end Rules

namespace Rule

inductive Gives [KeyOrder] (ctx : WordContext) (i : Index) : Role → Prop where
  | reference (c : Category) : Gives ctx i (.reference c)
  | command {r : Role} : Rules.command ctx i = some r → Gives ctx i r
  | localVar {r : Role} : Rules.localVar ctx = some r → Gives ctx i r
  | sigil {r : Role} : Rules.sigil ctx = some r → Gives ctx i r
  | trigger {r : Role} : Rules.trigger ctx = some r → Gives ctx i r
  | config {r : Role} : Rules.config ctx i = some r → Gives ctx i r

theorem gives_of_classify [KeyOrder] {ctx : WordContext} {i : Index} {r : Role}
    (h : classify ctx i = some r) :
    Gives ctx i r := by
  have href (hr : ∃ c, r = .reference c) : Gives ctx i r := by
    obtain ⟨c, rfl⟩ := hr
    exact .reference c
  obtain ⟨rule, hrule, h⟩ := List.exists_of_findSome?_eq_some h
  simp only [all, List.mem_cons, List.not_mem_nil, or_false] at hrule
  rcases hrule with rfl | rfl | rfl | rfl | rfl | rfl | rfl | rfl | rfl | rfl
  · rcases Rules.pack_eq_some h with rfl | rfl | ⟨keyword, rfl⟩ <;> exact .reference _
  · rcases Rules.literal_eq_some h with rfl | rfl | rfl <;> exact .reference _
  · exact .command h
  · exact .localVar h
  · exact .sigil h
  · exact .trigger h
  · exact .config h
  · exact href (Rules.map_reference h)
  · exact href (Rules.switchCase_reference h)
  · exact href (Rules.parameters_reference h)

/-- What is declared on a line with a script header is declared by its second word, except for local
variables; and no command is declared elsewhere. -/
theorem declares_cases [KeyOrder] {i : Index} {l : FileLine} {w : Word} {r : Role}
    (h : classify (l.context w) i = some r) (hd : r.declares = true) :
    Rules.OnHeader (l.context w) ∧ w.index = 1 ∨
      r.category ≠ .command ∧ (r.category = .localVar ∨ ¬ Rules.OnHeader (l.context w)) := by
  cases gives_of_classify h with
  | reference c => cases hd
  | command hr => exact .inl (Rules.command_declares hr hd)
  | localVar hr =>
    rcases Rules.localVar_eq_some hr with rfl | rfl
    · cases hd
    · exact .inr ⟨by decide, .inl rfl⟩
  | sigil hr =>
    obtain ⟨hc, hn⟩ := Rules.sigil_declares hr hd
    exact .inr ⟨by rw [hc]; decide, .inr hn⟩
  | trigger hr =>
    obtain ⟨hheader, hindex, -⟩ := Rules.trigger_declares hr hd
    exact .inl ⟨hheader, hindex⟩
  | config hr =>
    obtain ⟨hc, hn⟩ := Rules.config_declares hr hd
    exact .inr ⟨hc, .inr hn⟩

end Rule

end ScriptIndex
