import ScriptIndex.Proofs.TypeKeywords

/-! Registrations one after the other. Each looks up its keywords before it writes the two maps, so one that
is refused leaves the registry as it was, and no keyword ever passes from one name to another. -/
namespace ScriptIndex

namespace Registry

abbrev Step := ExceptT Conflict (StateM Registry)

def conflictOver? (r : Registry) (p : Profile) (keyword : String) : Option Conflict :=
  match r.keywords[keyword]? with
  | some holder => if holder ≠ "" ∧ holder ≠ p.id then some ⟨keyword, holder, p.id⟩ else none
  | none => none

def checkKeyword (p : Profile) (keyword : String) : Step Unit := do
  match (← get).conflictOver? p keyword with
  | some c => throw c
  | none => return ()

def bindKeyword (p : Profile) (keyword : String) : Step Unit :=
  modify fun r => { r with keywords := r.keywords.insert keyword p.id }

def registration (p : Profile) : Step Unit := do
  forM p.keywords (checkKeyword p)
  modify fun r => { r with profiles := r.profiles.insert p.id p }
  forM p.keywords (bindKeyword p)

def perform (r : Registry) (p : Profile) : Except Conflict Unit × Registry :=
  ((registration p).run.run r).run

private theorem run_checkKeyword (p : Profile) (keyword : String) (r : Registry) :
    (checkKeyword p keyword).run.run r =
      pure (match r.conflictOver? p keyword with
        | some c => .error c
        | none => .ok (), r) := by
  change (match r.conflictOver? p keyword with
    | some c => throw c
    | none => return () : Step Unit).run.run r = _
  cases r.conflictOver? p keyword <;> rfl

private theorem run_forM_checkKeyword (p : Profile) (keywords : List String) (r : Registry) :
    (forM keywords (checkKeyword p)).run.run r =
      pure (match keywords.findSome? (r.conflictOver? p) with
        | some c => .error c
        | none => .ok (), r) := by
  induction keywords with
  | nil => rfl
  | cons keyword rest ih =>
    rw [List.forM_cons, List.findSome?_cons, ExceptT.run_bind, StateT.run_bind, run_checkKeyword]
    cases r.conflictOver? p keyword with
    | some c => rfl
    | none => exact ih

private theorem run_forM_bindKeyword (p : Profile) (keywords : List String) (r : Registry) :
    (forM keywords (bindKeyword p)).run.run r =
      pure (.ok (),
        { r with keywords := keywords.foldl (fun m keyword => m.insert keyword p.id) r.keywords }) := by
  induction keywords generalizing r with
  | nil => rfl
  | cons keyword rest ih =>
    rw [List.forM_cons, ExceptT.run_bind, StateT.run_bind]
    exact ih _

/-- Written in place or not, a registration comes to the same. -/
private theorem perform_eq (r : Registry) (p : Profile) :
    r.perform p = match r.register p with
      | .ok r' => (.ok (), r')
      | .error c => (.error c, r) := by
  have hconflict : r.conflict? p = p.keywords.findSome? (r.conflictOver? p) := rfl
  unfold perform registration register
  rw [ExceptT.run_bind, StateT.run_bind, run_forM_checkKeyword, hconflict]
  cases p.keywords.findSome? (r.conflictOver? p) with
  | some c => rfl
  | none => exact congrArg Id.run (run_forM_bindKeyword p p.keywords _)

/-- The registry after registrations one after the other, those that are refused among them. -/
def after (profiles : List Profile) : Registry :=
  profiles.foldl (fun r p => (r.perform p).2) {}

variable {r r' : Registry} {p : Profile} {keyword id : String}

/-- Profiles are filed under their names, and keywords stand for names of profiles that are filed. -/
structure WellFormed (r : Registry) : Prop where
  filed : ∀ {id : String} {p : Profile}, r.profiles[id]? = some p → p.id = id
  bound : ∀ {keyword id : String}, r.keywords[keyword]? = some id →
    id ≠ "" ∧ ∃ p, r.profiles[id]? = some p

/-- A keyword of a profile stands for another name. -/
def Clashes (r : Registry) (p : Profile) : Prop :=
  ∃ keyword ∈ p.keywords, ∃ id : String, r.keywords[keyword]? = some id ∧ id ≠ p.id

private theorem isSome_conflictOver?_iff :
    (r.conflictOver? p keyword).isSome ↔
      ∃ holder, r.keywords[keyword]? = some holder ∧ holder ≠ "" ∧ holder ≠ p.id := by
  unfold conflictOver?
  cases r.keywords[keyword]? with
  | none => simp
  | some holder => simp only [Option.some.injEq, exists_eq_left', Option.isSome_ite]

/-- A registration is refused if a keyword of the profile stands for another name, and only then. -/
theorem register_eq_error_iff (h : r.WellFormed) :
    (∃ c, r.register p = .error c) ↔ r.Clashes p := by
  have hrefused : (∃ c, r.register p = .error c) ↔ (r.conflict? p).isSome := by
    unfold register
    cases r.conflict? p <;> simp
  have hfound : (r.conflict? p).isSome ↔ ∃ keyword ∈ p.keywords, (r.conflictOver? p keyword).isSome :=
    List.findSome?_isSome_iff
  rw [hrefused, hfound]
  simp only [isSome_conflictOver?_iff, Clashes]
  constructor
  · rintro ⟨keyword, hmem, id, hk, -, hne⟩
    exact ⟨keyword, hmem, id, hk, hne⟩
  · rintro ⟨keyword, hmem, id, hk, hne⟩
    exact ⟨keyword, hmem, id, hk, (h.bound hk).1, hne⟩

private theorem profiles_register (h : r.register p = .ok r') (id : String) :
    r'.profiles[id]? = if p.id = id then some p else r.profiles[id]? := by
  unfold register at h
  split at h
  · cases h
  · cases h
    rw [Std.ExtTreeMap.getElem?_insert]
    simp

/-- A registration takes no keyword from the name that it stands for. -/
theorem keeps_register (hr : r.WellFormed) (h : r.register p = .ok r')
    (hk : r.keywords[keyword]? = some id) : r'.keywords[keyword]? = some id := by
  rw [keywords_register h]
  split
  · rename_i hmem
    by_contra hne
    obtain ⟨c, hc⟩ := (register_eq_error_iff hr).2 ⟨keyword, hmem, id, hk, fun he => hne (by rw [he])⟩
    rw [hc] at h
    cases h
  · exact hk

private theorem WellFormed.register (hr : r.WellFormed) (hp : p.id ≠ "") (h : r.register p = .ok r') :
    r'.WellFormed where
  filed {id q} hq := by
    rw [profiles_register h] at hq
    split at hq
    · rename_i hid
      exact Option.some.inj hq ▸ hid
    · exact hr.filed hq
  bound {keyword id} hk := by
    have hfiled {id : String} (hid : ∃ q, r.profiles[id]? = some q) : ∃ q, r'.profiles[id]? = some q := by
      rw [profiles_register h]
      split
      · exact ⟨p, rfl⟩
      · exact hid
    rw [keywords_register h] at hk
    split at hk
    · cases hk
      exact ⟨hp, p, by rw [profiles_register h, if_pos rfl]⟩
    · obtain ⟨hne, hid⟩ := hr.bound hk
      exact ⟨hne, hfiled hid⟩

private theorem wellFormed_empty : WellFormed {} where
  filed h := by simp at h
  bound h := by simp at h

/-- The profile that a keyword stands for has the name that the keyword stands for. -/
theorem WellFormed.resolve_id (h : r.WellFormed) (keyword : String) :
    (r.resolve keyword).id = r.idOf keyword := by
  unfold resolve
  cases hp : r.profiles[r.idOf keyword]? with
  | some p => exact h.filed hp
  | none =>
    -- Only a keyword that stands for nothing has no profile.
    cases hk : r.keywords[keyword]? with
    | none =>
      simp [idOf, hk]
      rfl
    | some id =>
      obtain ⟨-, p, hid⟩ := h.bound hk
      simp [idOf, hk, hid] at hp

private theorem perform_cases (r : Registry) (p : Profile) :
    (∃ r', r.register p = .ok r' ∧ r.perform p = (.ok (), r')) ∨
      ∃ c, r.register p = .error c ∧ r.perform p = (.error c, r) := by
  rw [perform_eq]
  cases r.register p with
  | ok r' => exact .inl ⟨r', rfl, rfl⟩
  | error c => exact .inr ⟨c, rfl, rfl⟩

private theorem WellFormed.perform (hr : r.WellFormed) (hp : p.id ≠ "") : (r.perform p).2.WellFormed := by
  rcases perform_cases r p with ⟨r', h, hperform⟩ | ⟨c, h, hperform⟩
  · rw [hperform]
    exact hr.register hp h
  · rw [hperform]
    exact hr

private theorem keeps_perform (hr : r.WellFormed) (hk : r.keywords[keyword]? = some id) (p : Profile) :
    (r.perform p).2.keywords[keyword]? = some id := by
  rcases perform_cases r p with ⟨r', h, hperform⟩ | ⟨c, h, hperform⟩
  · rw [hperform]
    exact keeps_register hr h hk
  · rw [hperform]
    exact hk

/-- What every registration preserves holds after any number of them. -/
theorem wellFormed_foldl (hr : r.WellFormed) {profiles : List Profile}
    (hp : ∀ p ∈ profiles, p.id ≠ "") : (profiles.foldl (fun r p => (r.perform p).2) r).WellFormed := by
  induction profiles generalizing r with
  | nil => exact hr
  | cons p profiles ih =>
    obtain ⟨hfirst, hrest⟩ := List.forall_mem_cons.1 hp
    exact ih (hr.perform hfirst) hrest

private theorem keeps_foldl (hr : r.WellFormed) {profiles : List Profile} (hp : ∀ p ∈ profiles, p.id ≠ "")
    (hk : r.keywords[keyword]? = some id) :
    (profiles.foldl (fun r p => (r.perform p).2) r).keywords[keyword]? = some id := by
  induction profiles generalizing r with
  | nil => exact hk
  | cons p profiles ih =>
    obtain ⟨hfirst, hrest⟩ := List.forall_mem_cons.1 hp
    exact ih (hr.perform hfirst) hrest (keeps_perform hr hk p)

/-- After any registrations with names that are not empty: the next one is refused exactly if a keyword of it
stands for another name, and then both maps are as they were, while else its keywords stand for its name
and no others change; a keyword goes on standing for the name that it stands for; and the profile that a
keyword stands for has that name. -/
theorem registrations_keep_keywords {profiles : List Profile} (hprofiles : ∀ q ∈ profiles, q.id ≠ "") :
    (∀ p : Profile,
      (∀ c r', (after profiles).perform p = (.error c, r') →
        (after profiles).register p = .error c ∧ r' = after profiles) ∧
      (∀ r', (after profiles).perform p = (.ok (), r') →
        (after profiles).register p = .ok r' ∧ ∀ keyword : String, r'.keywords[keyword]? =
          if keyword ∈ p.keywords then some p.id else (after profiles).keywords[keyword]?) ∧
      ((∃ c, ((after profiles).perform p).1 = .error c) ↔ (after profiles).Clashes p)) ∧
    (∀ keyword id : String, (after profiles).keywords[keyword]? = some id →
      ∀ later : List Profile, (∀ q ∈ later, q.id ≠ "") →
        (after (profiles ++ later)).keywords[keyword]? = some id) ∧
    ∀ keyword, ((after profiles).resolve keyword).id = (after profiles).idOf keyword := by
  have hr : (after profiles).WellFormed := wellFormed_foldl wellFormed_empty hprofiles
  refine ⟨fun p => ?_, fun keyword id hk later hlater => ?_, hr.resolve_id⟩
  · rw [← register_eq_error_iff hr]
    rcases perform_cases (after profiles) p with ⟨next, h, hperform⟩ | ⟨c, h, hperform⟩
    · rw [hperform, h]
      refine ⟨fun c r' he => by simp at he, fun r' he => ?_, by simp⟩
      obtain rfl : next = r' := (Prod.mk.inj he).2
      exact ⟨rfl, keywords_register h⟩
    · rw [hperform, h]
      refine ⟨fun c' r' he => ?_, fun r' he => by simp at he, by simp⟩
      obtain ⟨hc, hstate⟩ := Prod.mk.inj he
      exact ⟨congrArg Except.error (Except.error.inj hc), hstate.symm⟩
  · rw [after, List.foldl_append]
    exact keeps_foldl hr hlater hk

/-- A second category that asks for a keyword of the first gets none of its own, also not the one in front. -/
theorem refused_registration_binds_nothing :
    let obj : Profile := { id := "OBJ", keywords := ["obj", "namedobj"] }
    let other : Profile := { id := "OTHER", keywords := ["thing", "obj"] }
    (∀ q ∈ [obj], q.id ≠ "") ∧ (∀ q ∈ [other], q.id ≠ "") ∧
      (∃ c, ((after [obj]).perform other).1 = .error c ∧
        (after [obj]).register other = .error c ∧ ((after [obj]).perform other).2 = after [obj]) ∧
      (after [obj]).keywords["namedobj"]? = some "OBJ" ∧
      (after ([obj] ++ [other])).keywords["namedobj"]? = some "OBJ" ∧
      ((after [obj]).resolve "obj").id = (after [obj]).idOf "obj" := by
  intro obj other
  have hobj : ∀ q ∈ [obj], q.id ≠ "" := by decide
  have hother : ∀ q ∈ [other], q.id ≠ "" := by decide
  have hbound : (after [obj]).keywords["obj"]? = some "OBJ" := by decide +kernel
  have hnamed : (after [obj]).keywords["namedobj"]? = some "OBJ" := by decide +kernel
  obtain ⟨hnext, hkept, hresolve⟩ := registrations_keep_keywords hobj
  obtain ⟨hrefused, -, hiff⟩ := hnext other
  obtain ⟨c, hc⟩ := hiff.2 ⟨"obj", by decide, "OBJ", hbound, by decide⟩
  exact ⟨hobj, hother, ⟨c, hc, hrefused c _ (Prod.ext hc rfl)⟩, hnamed,
    hkept "namedobj" "OBJ" hnamed [other] hother, hresolve "obj"⟩

end Registry

end ScriptIndex
