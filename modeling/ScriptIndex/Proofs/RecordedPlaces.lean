import Mathlib.Data.List.Perm.Basic
import Mathlib.Data.String.Basic
import ScriptIndex.Proofs.Classification
import ScriptIndex.Proofs.RestoredNames
import ScriptIndex.Proofs.ScriptEvents
import ScriptIndex.Proofs.Words
import ScriptIndex.Proofs.WorkspaceRuns
import ScriptIndex.Proofs.WrittenPositions

/-! The places where a symbol is recorded, as they are shown and renamed: each of them once, and nothing
else. A rename fails only if a file that goes with the symbol cannot have the new name. -/
namespace ScriptIndex

private theorem Position.compare_eq_lt {p q : Position} : compare p q = .lt ↔ p.Before q := by
  show (compare p.line q.line).then (compare p.column q.column) = .lt ↔ _
  rw [Ordering.then_eq_lt, Int.compare_eq_lt, Int.compare_eq_lt, Int.compare_eq_eq]
  rfl

/-- Whether a stretch is read before another one; files come in the order of their names. -/
def Location.Before (k l : Location) : Prop :=
  k.file < l.file ∨ k.file = l.file ∧ k.span.start.Before l.span.start

private theorem Location.Before.ne {k l : Location} (h : k.Before l) : k ≠ l := by
  rintro rfl
  rcases h with h | ⟨-, h⟩
  · exact lt_irrefl _ h
  · exact Position.Before.irrefl _ h

namespace Query

variable {s : Symbol} {length : Nat}

private theorem mem_places {l : Location} : l ∈ places s length ↔
    ∃ positions p, s.references[l.file]? = some positions ∧ p ∈ positions ∧ l.span = p.span length := by
  simp only [places, List.mem_flatMap, List.mem_map, Prod.exists,
    Std.ExtTreeMap.mem_toList_iff_getElem?_eq_some, Std.ExtTreeSet.mem_toList]
  constructor
  · rintro ⟨file, positions, hfile, p, hp, rfl⟩
    exact ⟨positions, p, hfile, hp, rfl⟩
  · rintro ⟨positions, p, hfile, hp, hspan⟩
    exact ⟨l.file, positions, hfile, p, hp, by rw [← hspan]⟩

/-- The places of a symbol come in the order of reading, so none comes twice. -/
theorem places_pairwise (s : Symbol) (length : Nat) : (places s length).Pairwise Location.Before := by
  rw [places, List.pairwise_flatMap]
  constructor
  · intro entry _
    exact List.pairwise_map.2 (Std.ExtTreeSet.ordered_toList.imp fun hpq =>
      .inr ⟨rfl, Position.compare_eq_lt.1 hpq⟩)
  · refine Std.ExtTreeMap.ordered_keys_toList.imp fun {a b} hfile k hk l hl => .inl ?_
    obtain ⟨p, -, rfl⟩ := List.mem_map.1 hk
    obtain ⟨q, -, rfl⟩ := List.mem_map.1 hl
    exact compare_lt_iff_lt.1 hfile

/-- The edits of a symbol are at its places, in another order. -/
private theorem map_location_edits_perm (s : Symbol) (length : Nat) (text : String) :
    ((edits s length text).map Edit.location).Perm (places s length) := by
  rw [edits, List.map_flatMap]
  refine List.Perm.flatMap_left _ fun entry _ => ?_
  rw [List.map_map]
  exact (List.mergeSort_perm _ _).map _

private theorem text_of_mem_edits {text : String} {e : Edit} (h : e ∈ edits s length text) :
    e.text = text := by
  obtain ⟨entry, -, he⟩ := List.mem_flatMap.1 h
  obtain ⟨p, -, rfl⟩ := List.mem_map.1 he
  rfl

variable {index : Index} {document file : String} {line column : Int} {m : Match}

/-- The classified word at a place of a document is a word of that line, with the cursor on it. -/
theorem matchAt?_eq_some [KeyOrder] (h : matchAt? index document line file column = some m) :
    ∃ (number cursor : Nat) (text : Line) (w : Word), line = number ∧ column = cursor ∧ file ≠ "" ∧
      (Text.splitLines document.toList)[number]? = some text ∧
      w ∈ Word.ofLine (LineShape.withoutComment text) ∧ w.covers cursor = true ∧
      m.context = ⟨.ofLine text number file, w, cursor⟩ ∧
      Match.ofContext? m.context index = some m := by
  unfold matchAt? at h
  split at h
  · rename_i hline
    obtain ⟨text, htext, h⟩ := Option.bind_eq_some_iff.1 h
    unfold Match.onColumn? at h
    split at h
    · cases h
    · rename_i hne
      obtain ⟨w, hw, h⟩ := Option.bind_eq_some_iff.1 h
      have hmem : w ∈ Word.ofLine (LineShape.withoutComment text) := Word.mem_of_at? hw
      have hcovers : w.covers column = true := by
        rw [LineContext.ofLine, Word.at?_eq_find?] at hw
        have hfound := List.find?_some hw
        exact hfound
      have hcolumn := Word.nonneg_of_at? hw
      have hcontext : m.context = ⟨.ofLine text line file, w, column.toNat⟩ := by
        obtain ⟨-, role, annotations, -, -, rfl⟩ := Index.ofContext?_eq_some.1 h
        rfl
      refine ⟨line.toNat, column.toNat, text, w, by omega, by omega, fun hf => hne (.inr hf), htext,
        hmem, ?_, ?_, hcontext ▸ h⟩
      · rwa [Int.toNat_of_nonneg hcolumn]
      · rw [hcontext, Int.toNat_of_nonneg hline]
  · cases h

private theorem of_cached {c : Category} (h : c.profile.cached = true) :
    c.profile.inert = false ∧ c.profile.displayOnly = false ∧ c ≠ .localVar := by
  revert h
  cases c <;> decide

private theorem renameable_eq [KeyOrder] (hm : matchAt? index document line file column = some m)
    (hcached : m.role.category.profile.cached = true)
    (hrenameable : m.role.category.profile.renameable = true)
    (hs : index.symbols.get? m.word m.role.category = some s) :
    renameable index document line file column = .ok m := by
  obtain ⟨hinert, -, -⟩ := of_cached hcached
  rw [renameable, hm]
  simp [hinert, hrenameable, SymbolTable.contains, hs]

/-- The edits of a rename are those of the symbol, if the files can be renamed too. -/
private theorem rename_eq [KeyOrder] (hm : matchAt? index document line file column = some m)
    (hcached : m.role.category.profile.cached = true)
    (hrenameable : m.role.category.profile.renameable = true)
    (hs : index.symbols.get? m.word m.role.category = some s) (root : Option Path) (d : Disk)
    (newName : String) :
    rename index root d document line file column newName =
      (fileRenames root d m.role.category m.word (adjustName m.annotations newName)).map fun files =>
        ⟨edits s (visibleLength m.word) (adjustName m.annotations newName), files⟩ := by
  obtain ⟨-, -, hlocal⟩ := of_cached hcached
  rw [rename, renameable_eq hm hcached hrenameable hs]
  show (if m.role.category = .localVar then _ else _) = _
  rw [if_neg hlocal, hs]
  cases fileRenames root d m.role.category m.word (adjustName m.annotations newName) <;> rfl

/-- The places that are shown are those of the symbol, but for a lone declaration. -/
private theorem references_eq [KeyOrder] (hm : matchAt? index document line file column = some m)
    (hcached : m.role.category.profile.cached = true)
    (hs : index.symbols.get? m.word m.role.category = some s) :
    references index document line file column =
      if m.role.declares = true ∧ (places s (visibleLength m.word)).length = 1 then []
      else places s (visibleLength m.word) := by
  obtain ⟨hinert, hdisplay, hlocal⟩ := of_cached hcached
  have hnothing : (m.role.category.profile.inert || m.role.category.profile.displayOnly) = false := by
    rw [hinert, hdisplay]
    rfl
  rw [references, hm]
  show (if (m.role.category.profile.inert || m.role.category.profile.displayOnly) = true then _ else _) = _
  rw [hnothing, if_neg Bool.false_ne_true, if_neg hlocal, hs]
  simp only [Bool.and_eq_true, beq_iff_eq]

def companions (root : Path) (d : Disk) (c : Category) (ending old new : String) :
    List (Path × String) :=
  (d.placesBelow root.parts).filterMap fun place =>
    let path := Path.mk root.root place
    if Text.fits (old ++ "*." ++ ending) path.name then
      (newFileName? c ending old new path.name).map fun name => (path, name)
    else none

/-- A file that goes with a symbol cannot have its new name, which is no name of a file. -/
def Misnamed (root : Option Path) (d : Disk) (c : Category) (old new : String) : Prop :=
  c.profile.renamesFile = true ∧ ∃ r, root = some r ∧ ∃ ending, c.profile.fileTypes.head? = some ending ∧
    ∃ companion ∈ companions r d c ending old new, isFileName companion.2 = false

private theorem renamesFile_cases {c : Category} (h : c.profile.renamesFile = true) :
    c = .interface ∨ c = .synth ∨ c = .model := by
  revert h
  cases c <;> decide

/-- The name of a symbol that stands for files is a stretch of the word. -/
private theorem word_subset_of_renamesFile [KeyOrder] {c : Category} {ctx : WordContext} {a : Annotations}
    (h : Annotations.of? c ctx index = some a) (hc : c.profile.renamesFile = true) :
    a.word.toList ⊆ ctx.word.value.toList := by
  obtain ⟨own, hmade⟩ := Annotations.exists_madeOf h
  have hqualifier : Annotations.qualifier? c ctx index = none := by
    rcases renamesFile_cases hc with rfl | rfl | rfl <;> rfl
  rcases hmade.word with hword | ⟨q, hq, -⟩
  · rw [hword, hmade.value]
    simp
  · rw [hqualifier] at hq
    cases hq

/-- A pattern with a single star and no slash can be searched for. -/
private theorem hasPart_stars_of_count_star {pattern : List Char} (h : pattern.count '*' = 1) :
    Text.hasPart ['*', '*'] pattern = false := by
  unfold Text.hasPart
  cases hcut : Text.cut? ['*', '*'] pattern with
  | none => rfl
  | some pieces =>
    rw [Text.cut?_append hcut, List.count_append, List.count_append] at h
    have htwo : ['*', '*'].count '*' = 2 := rfl
    omega

/-- The files of a symbol whose name has no slash and no star are searched for, and renamed together. -/
private theorem fileRenames_eq {c : Category} {ending : String} (hrenames : c.profile.renamesFile = true)
    (hending : c.profile.fileTypes.head? = some ending) (root : Path) (d : Disk) {old : String}
    (new : String) (hslash : '/' ∉ old.toList) (hstar : '*' ∉ old.toList) :
    fileRenames (some root) d c old new =
      if (companions root d c ending old new).any fun (_, name) => !isFileName name then
        .error .badFileName
      else .ok ((companions root d c ending old new).map fun (path, name) =>
        (path.text, (path.withName name).text)) := by
  have hplain : '/' ∉ ending.toList ∧ '*' ∉ ending.toList := by
    rcases renamesFile_cases hrenames with rfl | rfl | rfl <;> cases hending <;> decide
  have hpattern : (old ++ "*." ++ ending).toList = old.toList ++ '*' :: '.' :: ending.toList := by simp
  have hsingle : '/' ∉ (old ++ "*." ++ ending).toList := by
    rw [hpattern]
    simpa using ⟨hslash, hplain.1⟩
  have hrooted : (old ++ "*." ++ ending).toList.head? ≠ some '/' :=
    fun h => hsingle (List.mem_of_mem_head? h)
  have hcount : (old ++ "*." ++ ending).toList.count '*' = 1 := by
    have hnone : ending.toList.count '*' = 0 := List.count_eq_zero.2 hplain.2
    rw [hpattern, List.count_append, List.count_eq_zero.2 hstar]
    simpa using hnone
  have htame : ¬ ([(old ++ "*." ++ ending).toList].any fun part =>
      decide (part ≠ ['*', '*'] ∧ Text.hasPart ['*', '*'] part = true)) = true := by
    rw [List.any_eq_true]
    rintro ⟨part, hpart, hwild⟩
    rw [List.mem_singleton.1 hpart, decide_eq_true_eq, hasPart_stars_of_count_star hcount] at hwild
    exact Bool.false_ne_true hwild.2
  unfold fileRenames
  rw [hrenames, hending]
  dsimp only
  rw [List.splitOn_eq_singleton hsingle, if_neg hrooted, if_neg htame]
  simp only [List.length_singleton, true_and]
  rfl

/-- Files are not renamed only if one of them is misnamed. -/
theorem fileRenames_cases (root : Option Path) (d : Disk) (c : Category) {old : String} (new : String)
    (hold : c.profile.renamesFile = true → '/' ∉ old.toList ∧ '*' ∉ old.toList) :
    (Misnamed root d c old new ∧ fileRenames root d c old new = .error .badFileName) ∨
      (¬ Misnamed root d c old new ∧ ∃ files, fileRenames root d c old new = .ok files) := by
  by_cases hfiles : c.profile.renamesFile = true ∧ ∃ r, root = some r ∧
      ∃ ending, c.profile.fileTypes.head? = some ending
  · obtain ⟨hrenames, r, rfl, ending, hending⟩ := hfiles
    have hbad : Misnamed (some r) d c old new ↔
        ((companions r d c ending old new).any fun (_, name) => !isFileName name) = true := by
      simp [Misnamed, hrenames, hending]
    obtain ⟨hslash, hstar⟩ := hold hrenames
    rw [fileRenames_eq hrenames hending r d new hslash hstar, hbad]
    split
    · exact .inl ⟨‹_›, rfl⟩
    · exact .inr ⟨‹_›, _, rfl⟩
  · refine .inr ⟨?_, [], ?_⟩
    · rintro ⟨hrenames, r, hroot, ending, hending, -⟩
      exact hfiles ⟨hrenames, r, hroot, ending, hending⟩
    · unfold fileRenames
      split
      · rename_i r ending hrenames hending
        exact absurd ⟨hrenames, r, rfl, ending, hending⟩ hfiles
      · rfl

/-- A name that stands for files has no slash and no star, as no word has. -/
private theorem not_mem_word_of_renamesFile [KeyOrder]
    (hm : matchAt? index document line file column = some m)
    (hrenames : m.role.category.profile.renamesFile = true) :
    '/' ∉ m.word.toList ∧ '*' ∉ m.word.toList := by
  obtain ⟨number, cursor, text, w, -, -, -, -, hw, -, hcontext, hclassified⟩ := matchAt?_eq_some hm
  obtain ⟨-, role, annotations, -, hannotations, hmade⟩ := Index.ofContext?_eq_some.1 hclassified
  rw [hmade] at hrenames ⊢
  have hsubset : annotations.word.toList ⊆ w.value.toList := by
    have h := word_subset_of_renamesFile hannotations hrenames
    rwa [hcontext] at h
  have hform := Word.form_of_mem hw
  exact ⟨fun h => hform.not_mem (by decide) (by decide) (by decide) (by decide) (hsubset h),
    fun h => hform.not_mem (by decide) (by decide) (by decide) (by decide) (hsubset h)⟩

/-- A rename succeeds unless a file is misnamed, and then its edits are those of the symbol. -/
theorem rename_cases [KeyOrder] (hm : matchAt? index document line file column = some m)
    (hcached : m.role.category.profile.cached = true)
    (hrenameable : m.role.category.profile.renameable = true)
    (hs : index.symbols.get? m.word m.role.category = some s) (root : Option Path) (d : Disk)
    (newName : String) :
    let name := adjustName m.annotations newName
    (Misnamed root d m.role.category m.word name ∧
        rename index root d document line file column newName = .error .badFileName) ∨
      (¬ Misnamed root d m.role.category m.word name ∧ ∃ files,
        rename index root d document line file column newName =
          .ok ⟨edits s (visibleLength m.word) name, files⟩) := by
  intro name
  rw [rename_eq hm hcached hrenameable hs]
  rcases fileRenames_cases root d m.role.category name (not_mem_word_of_renamesFile hm) with
    ⟨hbad, herror⟩ | ⟨hgood, files, hfiles⟩
  · exact .inl ⟨hbad, by rw [herror]; rfl⟩
  · exact .inr ⟨hgood, files, by rw [hfiles]; rfl⟩

/-- What is shown for a symbol and what a rename of it changes are the places where it is recorded, each
of them once and as long as the part of the name that is written there. They are shown in the order of
reading, but not for a lone declaration. A rename fails exactly if a file cannot have the new name. -/
theorem references_rename_recorded [KeyOrder] (hm : matchAt? index document line file column = some m)
    (hcached : m.role.category.profile.cached = true)
    (hrenameable : m.role.category.profile.renameable = true)
    (hs : index.symbols.get? m.word m.role.category = some s) (root : Option Path) (d : Disk)
    (newName : String) :
    ∃ found : List Location, found.Pairwise Location.Before ∧
      (∀ l, l ∈ found ↔ ∃ positions p, s.references[l.file]? = some positions ∧ p ∈ positions ∧
        l.span = p.span (visibleLength m.word)) ∧
      (∀ l ∈ found, l.span.start.IsLegible →
        Position.decode? l.span.start.encode = some l.span.start) ∧
      references index document line file column =
        (if m.role.declares = true ∧ found.length = 1 then [] else found) ∧
      ((Misnamed root d m.role.category m.word (adjustName m.annotations newName) ∧
          rename index root d document line file column newName = .error .badFileName) ∨
        (¬ Misnamed root d m.role.category m.word (adjustName m.annotations newName) ∧ ∃ plan,
          rename index root d document line file column newName = .ok plan ∧
          (plan.edits.map Edit.location).Nodup ∧ (plan.edits.map Edit.location).Perm found ∧
          ∀ e ∈ plan.edits, e.text = adjustName m.annotations newName)) := by
  refine ⟨places s (visibleLength m.word), places_pairwise s _, fun l => mem_places,
    fun l _ h => Position.decode?_encode h, references_eq hm hcached hs, ?_⟩
  refine (rename_cases hm hcached hrenameable hs root d newName).imp_right fun ⟨hgood, files, hplan⟩ => ?_
  have hperm := map_location_edits_perm s (visibleLength m.word) (adjustName m.annotations newName)
  have hnodup : (places s (visibleLength m.word)).Nodup := (places_pairwise s _).imp Location.Before.ne
  exact ⟨hgood, _, hplan, hperm.nodup_iff.2 hnodup, hperm, fun e he => text_of_mem_edits he⟩

section
attribute [local instance] Codecs.standard KeyOrder.ascending

/-- Calls of a script on one line. In their written form the positions are in another order. -/
theorem calls_in_line_renamed :
    let text := "[proc,f]\n~f; ~f; ~f; ~f"
    let w := ({ root := ⟨.single, ["ws"]⟩ } : Workspace).perform {} (.parse "/ws/a.rs2" text)
    let found : List Location := [.at "/ws/a.rs2" 0 6 1, .at "/ws/a.rs2" 1 1 1, .at "/ws/a.rs2" 1 5 1,
      .at "/ws/a.rs2" 1 9 1, .at "/ws/a.rs2" 1 13 1]
    (∃ m s, matchAt? w.index text 1 "/ws/a.rs2" 5 = some m ∧ m.role.category.profile.cached = true ∧
      m.role.category.profile.renameable = true ∧
      w.index.symbols.get? m.word m.role.category = some s) ∧
    references w.index text 1 "/ws/a.rs2" 5 = found ∧
    ∃ plan, rename w.index w.root {} text 1 "/ws/a.rs2" 5 "g" = .ok plan ∧
      (plan.edits.map Edit.location).Perm found ∧ ∀ e ∈ plan.edits, e.text = "g" := by
  intro text w found
  have hfound : (matchAt? w.index text 1 "/ws/a.rs2" 5).map (fun m =>
      (m.role.category, m.role.declares, m.annotations)) =
        some (.proc, false, { word := "f", start := 5 }) := by decide +kernel
  obtain ⟨m, hm, hread⟩ := Option.map_eq_some_iff.1 hfound
  simp only [Prod.mk.injEq] at hread
  obtain ⟨hcategory, hdeclares, hannotations⟩ := hread
  have hknown : (w.index.symbols.get? "f" .proc).isSome = true := by decide +kernel
  obtain ⟨s, hs⟩ := Option.isSome_iff_exists.1 hknown
  have hcached : m.role.category.profile.cached = true := by rw [hcategory]; rfl
  have hrenameable : m.role.category.profile.renameable = true := by rw [hcategory]; rfl
  have hword : m.word = "f" := by rw [Match.word, hannotations]
  have hs : w.index.symbols.get? m.word m.role.category = some s := by rw [hword, hcategory, hs]
  have hshown : references w.index text 1 "/ws/a.rs2" 5 = found := by decide +kernel
  refine ⟨⟨m, s, hm, hcached, hrenameable, hs⟩, hshown, ?_⟩
  obtain ⟨places, -, -, -, hreferences, hrename⟩ :=
    references_rename_recorded hm hcached hrenameable hs w.root {} "g"
  rw [hshown, hdeclares] at hreferences
  have hplaces : places = found := by simpa using hreferences.symm
  have hname : adjustName m.annotations "g" = "g" := by
    rw [hannotations]
    decide
  rcases hrename with ⟨⟨hfile, -⟩, -⟩ | ⟨-, plan, hplan, -, hperm, htext⟩
  · rw [hcategory] at hfile
    cases hfile
  · exact ⟨plan, hplan, hplaces ▸ hperm, hname ▸ htext⟩

/-- An interface that has a file cannot be renamed to a name with a slash, and nothing is edited. -/
theorem slash_in_interface_name :
    let text := "1=bank"
    let w := ({ root := ⟨.single, ["ws"]⟩ } : Workspace).perform {} (.parse "/ws/interface.pack" text)
    let d : Disk := ⟨.ofList [(["ws"], Node.directory), (["ws", "bank.if"], .file [])]⟩
    (∃ m, matchAt? w.index text 0 "/ws/interface.pack" 2 = some m ∧
      m.role.category.profile.cached = true ∧ m.role.category.profile.renameable = true) ∧
    references w.index text 0 "/ws/interface.pack" 2 = [.at "/ws/interface.pack" 0 2 4] ∧
    rename w.index w.root d text 0 "/ws/interface.pack" 2 "ui/shop" = .error .badFileName := by
  intro text w d
  have hfound : (matchAt? w.index text 0 "/ws/interface.pack" 2).any (fun m =>
      m.role.category.profile.cached && m.role.category.profile.renameable) = true := by
    decide +kernel
  obtain ⟨m, hm, hprofile⟩ := (Option.any_eq_true _ _).1 hfound
  rw [Bool.and_eq_true] at hprofile
  exact ⟨⟨m, hm, hprofile⟩, by decide +kernel, by decide +kernel⟩

end

end Query

end ScriptIndex
