import ScriptIndex.Proofs.SharedKeys
import ScriptIndex.Registry

namespace ScriptIndex

namespace Registry

private theorem getElem?_bind (keywords : List String) (id : String) (bound : Std.ExtTreeMap String String)
    (keyword : String) :
    (keywords.foldl (fun m keyword => m.insert keyword id) bound)[keyword]? =
      if keyword ∈ keywords then some id else bound[keyword]? := by
  induction keywords generalizing bound with
  | nil => simp
  | cons first rest ih =>
    rw [List.foldl_cons, ih, Std.ExtTreeMap.getElem?_insert]
    by_cases hfirst : first = keyword
    · simp [hfirst]
    · simp [hfirst, Ne.symm hfirst]

/-- A registration binds its keywords and leaves the others. -/
theorem keywords_register {r r' : Registry} {p : Profile} (h : r.register p = .ok r') (keyword : String) :
    r'.keywords[keyword]? = if keyword ∈ p.keywords then some p.id else r.keywords[keyword]? := by
  unfold register at h
  split at h
  · cases h
  · cases h
    exact getElem?_bind p.keywords p.id r.keywords keyword

private theorem keywords_standard_of_mem {c : Category} {keyword : String}
    (h : keyword ∈ c.profile.keywords) :
    standard.keywords[keyword]? = some c.id := by
  have hall : ∀ c ∈ Category.all, ∀ keyword ∈ c.profile.keywords,
      standard.keywords[keyword]? = some c.id := by decide +kernel
  exact hall c (Category.mem_all c) keyword h

private theorem keywords_standard_eq_none {keyword : String}
    (h : ∀ c ∈ Category.all, keyword ∉ c.profile.keywords) : standard.keywords[keyword]? = none := by
  have hstep {r : Registry} {c : Category} (hr : r.keywords[keyword]? = none)
      (hc : keyword ∉ c.profile.keywords) :
      ((r.register c.profile).toOption.getD r).keywords[keyword]? = none := by
    cases hregister : r.register c.profile with
    | error conflict => exact hr
    | ok r' => exact (keywords_register hregister keyword).trans ((if_neg hc).trans hr)
  have hfold (cs : List Category) (r : Registry) (hr : r.keywords[keyword]? = none)
      (hcs : ∀ c ∈ cs, keyword ∉ c.profile.keywords) :
      (cs.foldl (fun r c => (r.register c.profile).toOption.getD r) r).keywords[keyword]? = none := by
    induction cs generalizing r with
    | nil => exact hr
    | cons c cs ih =>
      obtain ⟨hc, hcs⟩ := List.forall_mem_cons.1 hcs
      exact ih _ (hstep hr hc) hcs
  exact hfold Category.all {} Std.ExtTreeMap.getElem?_empty h

/-- A keyword stands for the name of its category. -/
theorem idOf_standard (keyword : String) : standard.idOf keyword = (Category.ofKeyword keyword).id := by
  unfold idOf Category.ofKeyword
  cases hfound : Category.all.find? fun c => c.profile.keywords.contains keyword with
  | none =>
    rw [List.find?_eq_none] at hfound
    rw [keywords_standard_eq_none fun c hc => by simpa using hfound c hc]
    rfl
  | some c =>
    have hc := List.find?_some hfound
    rw [keywords_standard_of_mem (List.contains_iff_mem.1 hc)]
    rfl

end Registry

end ScriptIndex
