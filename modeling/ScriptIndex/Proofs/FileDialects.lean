import Mathlib.Data.List.TakeWhile
import ScriptIndex.Proofs.FilePaths

/-! Dialects of files. A file is accepted by what stands behind the last dot of its name, blanks aside; its
key is tested as it ends; and the rules take what stands behind the first dot. The three agree if the name has
one dot and no blanks behind it, and beyond that only if the name repeats its ending. -/
namespace ScriptIndex

namespace Path

/-- An ending stands behind the last dot of a name. -/
private theorem exists_of_extensionOf_ne {name : String} (h : extensionOf name ≠ "") :
    ∃ stem ending, name.toList = stem ++ '.' :: ending ∧ '.' ∉ ending ∧
      extensionOf name = String.ofList ending := by
  unfold extensionOf at h ⊢
  dsimp only at h ⊢
  split
  · rename_i hending
    obtain ⟨hlong, -⟩ := hending
    have hsplit := List.takeWhile_append_dropWhile (p := (· ≠ '.')) (l := name.toList.reverse)
    have hdot := List.head?_dropWhile_not (· ≠ '.') name.toList.reverse
    have hlength := congrArg List.length hsplit
    simp only [List.length_append, List.length_reverse] at hlength hlong
    cases hrest : name.toList.reverse.dropWhile (· ≠ '.') with
    | nil =>
      rw [hrest, List.length_nil] at hlength
      omega
    | cons c front =>
      rw [hrest] at hsplit hdot
      obtain rfl : c = '.' := by simpa using hdot
      refine ⟨front.reverse, (name.toList.reverse.takeWhile (· ≠ '.')).reverse, ?_, ?_, rfl⟩
      · have hreverse := congrArg List.reverse hsplit
        rw [List.reverse_append, List.reverse_reverse, List.reverse_cons, List.append_assoc] at hreverse
        exact hreverse.symm
      · intro hmem
        simpa using List.mem_takeWhile_imp (List.mem_reverse.1 hmem)
  · rename_i hending
    rw [if_neg hending] at h
    exact absurd rfl h

end Path

namespace FileName

/-- The dialect is what stands between the first dot of a name and the next, or its end. -/
theorem dialect_eq_iff {file dialect : String} (hne : dialect ≠ "") (hdot : '.' ∉ dialect.toList) :
    (ofFile file).dialect = dialect ↔ ∃ stem, '.' ∉ stem ∧
      ((Path.parse file).name.toList = stem ++ '.' :: dialect.toList ∨
        ∃ behind, (Path.parse file).name.toList = stem ++ '.' :: (dialect.toList ++ '.' :: behind)) := by
  unfold ofFile
  constructor
  · intro h
    have hname : ['.'].intercalate (List.splitOn '.' (Path.parse file).name.toList) =
        (Path.parse file).name.toList := List.intercalate_splitOn '.'
    split at h
    · rename_i stem piece pieces hsplit
      have hstem : '.' ∉ stem := Text.not_mem_of_mem_splitOn (hsplit ▸ List.mem_cons_self)
      have hpiece : piece = dialect.toList := by rw [← h, String.toList_ofList]
      rw [hsplit, List.intercalate_cons_cons, List.append_assoc, List.singleton_append] at hname
      refine ⟨stem, hstem, ?_⟩
      cases pieces with
      | nil =>
        rw [List.intercalate_singleton, hpiece] at hname
        exact .inl hname.symm
      | cons next pieces =>
        rw [List.intercalate_cons_cons, List.append_assoc, List.singleton_append, hpiece] at hname
        exact .inr ⟨_, hname.symm⟩
    · exact absurd h.symm hne
    · exact absurd h.symm hne
  · rintro ⟨stem, hstem, hname | ⟨behind, hname⟩⟩
    · rw [hname, List.splitOn_append_cons_self_of_not_mem hstem, List.splitOn_eq_singleton hdot]
      exact String.ofList_toList
    · rw [hname, List.splitOn_append_cons_self_of_not_mem hstem,
        List.splitOn_append_cons_self_of_not_mem hdot]
      exact String.ofList_toList

end FileName

@[simp] theorem LineContext.fileName_ofLine (line : Line) (number : Int) (file : String) :
    (LineContext.ofLine line number file).fileName = FileName.ofFile file := rfl

namespace Workspace

/-- The key of a file ends with the name of the file, which is the name of the key. -/
private theorem name_fileKey (w : Workspace) {file : String} (h : (Path.parse file).name ≠ "") :
    (Path.parse (w.fileKey file)).name = (Path.parse file).name ∧
      ∃ front, (w.fileKey file).toList = front ++ (Path.parse file).name.toList := by
  obtain ⟨parts, name, hparts⟩ : ∃ parts name, (Path.parse file).parts = parts ++ [name] := by
    rcases List.eq_nil_or_concat (Path.parse file).parts with hnil | ⟨parts, name, hparts⟩
    · exact absurd (by simp [Path.name, hnil]) h
    · exact ⟨parts, name, by rw [hparts, List.concat_eq_append]⟩
  have hname : (Path.parse file).name = name := by simp [Path.name, hparts]
  have hjoin : ∃ before, (w.root.join (Path.parse file)).parts = before ++ [name] := by
    unfold Path.join
    split
    · exact ⟨parts, hparts⟩
    · exact ⟨w.root.parts ++ parts, by rw [hparts, List.append_assoc]⟩
  obtain ⟨before, hjoin⟩ := hjoin
  have hpart : Path.IsName name :=
    Path.isName_of_mem_parse (hparts ▸ List.mem_append_right _ List.mem_cons_self)
  rw [hname]
  refine ⟨Path.name_parse_text hjoin hpart, ?_⟩
  rcases Path.text_eq_name_or hjoin with htext | ⟨front, htext⟩
  · exact ⟨[], htext⟩
  · exact ⟨front ++ ['/'], by rw [fileKey, htext, List.append_assoc]; rfl⟩

/-- What accepts a file, what tests its key, and what the rules go by say the same of its type. -/
structure OneDialect (w : Workspace) (file : String) : Prop where
  rules : (FileName.ofFile file).dialect = (Path.parse file).extension
  scripts : ScriptCache.hasEnding ".rs2" (w.fileKey file) = true ↔ (FileName.ofFile file).dialect = "rs2"
  maps : ScriptCache.hasEnding ".jm2" (w.fileKey file) = true ↔ (FileName.ofFile file).dialect = "jm2"

/-- The name of a file is a text without dots, a dot, and the extension, with no blanks around it. -/
def PlainlyNamed (file : String) : Prop :=
  ∃ stem, '.' ∉ stem ∧
    (Path.parse file).name.toList = stem ++ '.' :: (Path.parse file).extension.toList

/-- The name of a file has the extension behind its first dot and goes on with another dot. If the extension
is that of scripts or maps, the name also ends with it, without blanks. -/
def RepeatsExtension (file : String) : Prop :=
  (∃ stem behind, '.' ∉ stem ∧ (Path.parse file).name.toList =
    stem ++ '.' :: ((Path.parse file).extension.toList ++ '.' :: behind)) ∧
  ('.' :: (Path.parse file).extension.toList <:+ (Path.parse file).name.toList ∨
    (Path.parse file).extension ≠ "rs2" ∧ (Path.parse file).extension ≠ "jm2")

private theorem withoutQuery_eq_self {file : String} (hhash : '#' ∉ file.toList)
    (hquery : '?' ∉ file.toList) :
    withoutQuery file = file := by
  unfold withoutQuery
  rw [List.takeWhile_eq_self_iff.2 fun c hc => ?_, String.ofList_toList]
  simp only [ne_eq, decide_eq_true_eq]
  exact ⟨fun he => hhash (he ▸ hc), fun he => hquery (he ▸ hc)⟩

private theorem extension_ne_of_isIndexed {file : String} (hhash : '#' ∉ file.toList)
    (hquery : '?' ∉ file.toList) (h : isIndexed file = true) : (Path.parse file).extension ≠ "" := by
  rw [isIndexed_iff, withoutQuery_eq_self hhash hquery, toList_fileTypes] at h
  intro he
  rw [he] at h
  exact absurd h (by decide)

-- The table of file types is long and never evaluated here.
attribute [local irreducible] isIndexed

/-- The key of a file ends in a dot and a text exactly if the text stands behind the last dot of the name. -/
theorem hasEnding_fileKey_iff (w : Workspace) {file : String} {stem ending e : List Char}
    (hname : (Path.parse file).name.toList = stem ++ '.' :: ending) (hending : '.' ∉ ending)
    (he : '.' ∉ e) :
    ScriptCache.hasEnding (String.ofList ('.' :: e)) (w.fileKey file) = true ↔ ending = e := by
  have hne : (Path.parse file).name ≠ "" := fun hempty => by simp [hempty] at hname
  obtain ⟨-, front, hkey⟩ := w.name_fileKey hne
  rw [ScriptCache.hasEnding, List.isSuffixOf_iff_suffix, String.toList_ofList, hkey, hname,
    ← List.append_assoc, Text.suffix_append_mark he hending]
  exact eq_comm

private theorem ofFile_fileKey (w : Workspace) {file : String} (h : (Path.parse file).name ≠ "") :
    FileName.ofFile (w.fileKey file) = FileName.ofFile file := by
  unfold FileName.ofFile
  rw [(w.name_fileKey h).1]

/-- The name of a file that has an extension, cut at its last dot. -/
private theorem exists_ending {file : String} (h : (Path.parse file).extension ≠ "") :
    ∃ stem ending, (Path.parse file).name.toList = stem ++ '.' :: ending ∧ '.' ∉ ending ∧
      (Path.parse file).extension.toList = Text.strip ending := by
  have hne : Path.extensionOf (Path.parse file).name ≠ "" := by
    intro he
    refine h ?_
    rw [Path.extension, he]
    rfl
  obtain ⟨stem, ending, hname, hdot, hending⟩ := Path.exists_of_extensionOf_ne hne
  refine ⟨stem, ending, hname, hdot, ?_⟩
  rw [Path.extension, hending, String.toList_ofList, String.toList_ofList]

private theorem dot_not_mem_extension (file : String) : '.' ∉ (Path.parse file).extension.toList := by
  by_cases h : (Path.parse file).extension = ""
  · simp [h]
  · obtain ⟨stem, ending, -, hdot, hext⟩ := exists_ending h
    exact fun hmem => hdot ((Text.strip_infix ending).subset (hext ▸ hmem))

/-- A test for an ending says the same of the ending and of the extension unless it fails on blanks. -/
private theorem test_iff_extension {extension : String} {ending e : List Char}
    (hext : extension.toList = Text.strip ending) (he : Text.strip e = e) :
    (ending = e ↔ extension = String.ofList e) ↔
      extension.toList = ending ∨ extension ≠ String.ofList e := by
  have htext : extension = String.ofList e ↔ extension.toList = e := by
    rw [← String.toList_inj, String.toList_ofList]
  rw [Ne, htext]
  constructor
  · intro h
    by_cases hextension : extension.toList = e
    · exact .inl (hextension.trans (h.2 hextension).symm)
    · exact .inr hextension
  · rintro (h | h)
    · rw [h]
    · refine ⟨fun hending => absurd ?_ h, fun hextension => absurd hextension h⟩
      rw [hext, hending, he]

/-- If the rules go by the extension, then the tests of the key do too, unless blanks hide an ending that
they look for. -/
private theorem oneDialect_iff_of_rules (w : Workspace) {file : String}
    (h : (Path.parse file).extension ≠ "")
    (hrules : (FileName.ofFile file).dialect = (Path.parse file).extension) :
    w.OneDialect file ↔
      '.' :: (Path.parse file).extension.toList <:+ (Path.parse file).name.toList ∨
        (Path.parse file).extension ≠ "rs2" ∧ (Path.parse file).extension ≠ "jm2" := by
  obtain ⟨stem, ending, hname, hdot, hext⟩ := exists_ending h
  have hscripts : ScriptCache.hasEnding ".rs2" (w.fileKey file) = true ↔ ending = "rs2".toList :=
    w.hasEnding_fileKey_iff hname hdot (by decide)
  have hmaps : ScriptCache.hasEnding ".jm2" (w.fileKey file) = true ↔ ending = "jm2".toList :=
    w.hasEnding_fileKey_iff hname hdot (by decide)
  rw [hname, Text.suffix_append_mark (dot_not_mem_extension file) hdot, or_and_left]
  calc
    _ ↔ (ending = "rs2".toList ↔ (Path.parse file).extension = "rs2") ∧
        (ending = "jm2".toList ↔ (Path.parse file).extension = "jm2") := by
      rw [← hscripts, ← hmaps, ← hrules]
      exact ⟨fun ⟨_, hs, hm⟩ => ⟨hs, hm⟩, fun ⟨hs, hm⟩ => ⟨hrules, hs, hm⟩⟩
    _ ↔ _ := and_congr (test_iff_extension hext (by decide)) (test_iff_extension hext (by decide))

/-- On every line of an accepted file the rules see the file's own name. The type they go by, the type that
the file is accepted for and the tests of its key agree exactly if the name has one dot and no blanks around
its extension, or repeats the extension. -/
theorem oneDialect_iff_named (w : Workspace) {file : String} (hhash : '#' ∉ file.toList)
    (hquery : '?' ∉ file.toList) (h : isIndexed file = true) :
    (∀ line number, (LineContext.ofLine line number (w.fileKey file)).fileName = FileName.ofFile file) ∧
      (w.OneDialect file ↔ PlainlyNamed file ∨ RepeatsExtension file) := by
  have hne := extension_ne_of_isIndexed hhash hquery h
  obtain ⟨_, _, hname, -, -⟩ := exists_ending hne
  have hrules : (FileName.ofFile file).dialect = (Path.parse file).extension ↔ _ :=
    FileName.dialect_eq_iff hne (dot_not_mem_extension file)
  have hkey : FileName.ofFile (w.fileKey file) = FileName.ofFile file :=
    w.ofFile_fileKey fun hempty => by simp [hempty] at hname
  refine ⟨fun line number => ?_, fun hone => ?_, ?_⟩
  · rw [LineContext.fileName_ofLine, hkey]
  · obtain ⟨stem, hstem, hplain | hmore⟩ := hrules.1 hone.rules
    · exact .inl ⟨stem, hstem, hplain⟩
    · obtain ⟨behind, hmore⟩ := hmore
      exact .inr ⟨⟨stem, behind, hstem, hmore⟩, (w.oneDialect_iff_of_rules hne hone.rules).1 hone⟩
  · rintro (⟨stem, hstem, hplain⟩ | ⟨⟨stem, behind, hstem, hmore⟩, htests⟩)
    · refine (w.oneDialect_iff_of_rules hne (hrules.2 ⟨stem, hstem, .inl hplain⟩)).2 (.inl ?_)
      rw [hplain]
      exact List.suffix_append stem _
    · exact (w.oneDialect_iff_of_rules hne (hrules.2 ⟨stem, hstem, .inr ⟨behind, hmore⟩⟩)).2 htests

/-- A script in a directory, given with a slash too many at the end, is a script to all three. -/
theorem oneDialect_script :
    '#' ∉ "scripts/engine.rs2/".toList ∧ '?' ∉ "scripts/engine.rs2/".toList ∧
      isIndexed "scripts/engine.rs2/" = true ∧ PlainlyNamed "scripts/engine.rs2/" ∧
      Workspace.OneDialect { root := Path.parse "/ws" } "scripts/engine.rs2/" := by
  have hhash : '#' ∉ "scripts/engine.rs2/".toList := by decide
  have hquery : '?' ∉ "scripts/engine.rs2/".toList := by decide
  have hindexed : isIndexed "scripts/engine.rs2/" = true := by
    rw [isIndexed_iff, toList_fileTypes]
    decide
  have hplain : PlainlyNamed "scripts/engine.rs2/" := ⟨"engine".toList, by decide, by decide⟩
  obtain ⟨-, hiff⟩ := oneDialect_iff_named { root := Path.parse "/ws" } hhash hquery hindexed
  exact ⟨hhash, hquery, hindexed, hplain, hiff.2 (.inl hplain)⟩

/-- With a second dot in its name a config file is accepted as `obj` and read as `v2`; with a blank behind its
name a script is accepted as `rs2` and is none to the tests and to the rules. -/
theorem second_dot_misread :
    ('#' ∉ "sword.v2.obj".toList ∧ '?' ∉ "sword.v2.obj".toList ∧ isIndexed "sword.v2.obj" = true ∧
      (Path.parse "sword.v2.obj").extension = "obj" ∧
      (FileName.ofFile "sword.v2.obj").dialect = "v2") ∧
    ('#' ∉ "a.rs2 ".toList ∧ '?' ∉ "a.rs2 ".toList ∧ isIndexed "a.rs2 " = true ∧
      (Path.parse "a.rs2 ").extension = "rs2" ∧ (FileName.ofFile "a.rs2 ").dialect = "rs2 " ∧
      ScriptCache.hasEnding ".rs2" (Workspace.fileKey { root := Path.parse "/ws" } "a.rs2 ") = false) := by
  rw [isIndexed_iff, isIndexed_iff, toList_fileTypes]
  decide +kernel

end Workspace

end ScriptIndex
