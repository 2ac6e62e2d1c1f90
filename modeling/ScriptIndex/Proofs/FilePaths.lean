import ScriptIndex.Proofs.Pieces
import ScriptIndex.Proofs.TableViews
import ScriptIndex.Workspace

namespace ScriptIndex

def Path.IsName (part : String) : Prop :=
  part ≠ "" ∧ part ≠ "." ∧ '/' ∉ part.toList

instance (part : String) : Decidable (Path.IsName part) :=
  inferInstanceAs (Decidable (_ ∧ _ ∧ _))

namespace Path

/-- The root is read from the text in front of the parts, which do not start with a slash. -/
private theorem rootOf_text (root : Root) {c : Char} (h : c ≠ '/') (cs : List Char) :
    rootOf (root.text.toList ++ c :: cs) = root := by
  cases root with
  | relative =>
    change rootOf (c :: cs) = .relative
    simp [rootOf, h]
  | single =>
    change rootOf ('/' :: c :: cs) = .single
    simp [rootOf, h]
  | double =>
    change rootOf ('/' :: '/' :: c :: cs) = .double
    simp [rootOf, h]

/-- The slashes in front of the parts are left out. -/
private theorem split_text (root : Root) (cs : List Char) :
    (List.splitOn '/' (root.text.toList ++ cs)).filter (fun part => part ≠ [] ∧ part ≠ ['.']) =
      (List.splitOn '/' cs).filter fun part => part ≠ [] ∧ part ≠ ['.'] := by
  cases root with
  | relative => rfl
  | single => rfl
  | double => rfl

/-- The text of a path with parts: what its root writes, and the parts with slashes between them. -/
private theorem toList_text {p : Path} (h : p.parts ≠ []) :
    p.text.toList = p.root.text.toList ++ ['/'].intercalate (p.parts.map String.toList) := by
  rw [text, if_neg fun he => h he.2, String.toList_append, String.toList_intercalate]
  rfl

/-- A path whose parts are names is read back from its text. -/
theorem parse_text {p : Path} (h : ∀ part ∈ p.parts, IsName part) : parse p.text = p := by
  obtain ⟨root, parts⟩ := p
  cases parts with
  | nil => cases root <;> decide
  | cons part parts =>
    have htext : (Path.mk root (part :: parts)).text.toList =
        root.text.toList ++ ['/'].intercalate ((part :: parts).map String.toList) :=
      toList_text (List.cons_ne_nil part parts)
    have hsplit : List.splitOn '/' (['/'].intercalate ((part :: parts).map String.toList)) =
        (part :: parts).map String.toList :=
      List.splitOn_intercalate _ (by simpa using fun x hx => (h x hx).2.2) (by simp)
    have hkeep : ∀ cs ∈ (part :: parts).map String.toList, cs ≠ [] ∧ cs ≠ ['.'] := by
      intro cs hcs
      obtain ⟨x, hx, rfl⟩ := List.mem_map.1 hcs
      obtain ⟨hempty, hdot, -⟩ := h x hx
      exact ⟨fun he => hempty (String.toList_eq_nil_iff.1 he),
        fun he => hdot (String.toList_inj.1 he)⟩
    obtain ⟨c, cs, hc, hcs⟩ : ∃ c cs, c ≠ '/' ∧
        ['/'].intercalate ((part :: parts).map String.toList) = c :: cs := by
      obtain ⟨hempty, -, hslash⟩ := h part List.mem_cons_self
      cases hp : part.toList with
      | nil => exact absurd (String.toList_eq_nil_iff.1 hp) hempty
      | cons c cs =>
        have hc : c ≠ '/' := by
          rintro rfl
          simp [hp] at hslash
        cases parts with
        | nil => exact ⟨c, cs, hc, by simp [hp]⟩
        | cons next parts =>
          refine ⟨c, cs ++ ['/'] ++ ['/'].intercalate ((next :: parts).map String.toList), hc, ?_⟩
          rw [List.map_cons, List.map_cons, List.intercalate_cons_cons, hp]
          rfl
    unfold parse
    rw [htext, split_text, hsplit, List.filter_eq_self.2 (by simpa using hkeep), hcs,
      rootOf_text root hc]
    simp [Function.comp_def]

/-- Such a path is the key of its own text. -/
theorem fileKey?_text {p : Path} (h : ∀ part ∈ p.parts, IsName part) :
    fileKey? p.text = some p.text := by
  have hp := parse_text h
  rw [fileKey?, if_neg, hp]
  intro he
  rw [he] at hp
  rw [← hp] at he
  exact absurd he (by decide)

theorem isName_of_mem_parse {s part : String} (h : part ∈ (parse s).parts) : IsName part := by
  obtain ⟨cs, hcs, rfl⟩ := List.mem_map.1 h
  obtain ⟨hmem, hkept⟩ := List.mem_filter.1 hcs
  obtain ⟨hempty, hdot⟩ := of_decide_eq_true hkept
  refine ⟨fun he => hempty ?_, fun he => hdot ?_, ?_⟩
  · simpa using congrArg String.toList he
  · simpa using congrArg String.toList he
  · simpa using Text.not_mem_of_mem_splitOn hmem

/-- Parts with slashes between them end with the last part, alone or behind a slash. -/
private theorem intercalate_concat (parts : List (List Char)) (name : List Char) :
    ['/'].intercalate (parts ++ [name]) = name ∨
      ∃ front, ['/'].intercalate (parts ++ [name]) = front ++ '/' :: name := by
  induction parts with
  | nil => exact .inl List.intercalate_singleton
  | cons part parts ih =>
    obtain ⟨next, rest, hrest⟩ :=
      List.exists_cons_of_ne_nil (List.append_ne_nil_of_right_ne_nil parts (List.cons_ne_nil name []))
    rw [List.cons_append, hrest, List.intercalate_cons_cons, ← hrest]
    rcases ih with ih | ⟨front, ih⟩
    · exact .inr ⟨part, by rw [ih, List.append_assoc]; rfl⟩
    · exact .inr ⟨part ++ '/' :: front, by rw [ih]; simp⟩

theorem text_eq_name_or {p : Path} {parts : List String} {name : String}
    (hp : p.parts = parts ++ [name]) :
    p.text.toList = name.toList ∨ ∃ front, p.text.toList = front ++ '/' :: name.toList := by
  have hne : p.parts ≠ [] := hp ▸ List.append_ne_nil_of_right_ne_nil parts (List.cons_ne_nil name [])
  rw [toList_text hne, hp, List.map_append, List.map_singleton]
  rcases intercalate_concat (parts.map String.toList) name.toList with h | ⟨front, h⟩
  · rw [h]
    cases p.root with
    | relative => exact .inl rfl
    | single => exact .inr ⟨[], rfl⟩
    | double => exact .inr ⟨['/'], rfl⟩
  · exact .inr ⟨p.root.text.toList ++ front, by rw [h, List.append_assoc]⟩

/-- The name of a path is read back from its text. -/
theorem name_parse_text {p : Path} {parts : List String} {name : String} (hp : p.parts = parts ++ [name])
    (hname : IsName name) : (parse p.text).name = name := by
  obtain ⟨hempty, hdot, hslash⟩ := hname
  have hsplit : ∃ pieces, List.splitOn '/' p.text.toList = pieces ++ [name.toList] := by
    rcases text_eq_name_or hp with h | ⟨front, h⟩
    · exact ⟨[], by rw [h, List.splitOn_eq_singleton hslash]; rfl⟩
    · exact ⟨List.splitOn '/' front,
        by rw [h, List.splitOn_append_cons_self, List.splitOn_eq_singleton hslash]⟩
  obtain ⟨pieces, hpieces⟩ := hsplit
  have hkept : name.toList ≠ [] ∧ name.toList ≠ ['.'] :=
    ⟨fun he => hempty (String.toList_eq_nil_iff.1 he), fun he => hdot (String.toList_inj.1 he)⟩
  simp [Path.name, parse, hpieces, List.filter_append, hkept]

end Path

def Disk.WellNamed (d : Disk) : Prop :=
  ∀ place ∈ d.nodes, ∀ part ∈ place, Path.IsName part

instance (d : Disk) : Decidable d.WellNamed :=
  decidable_of_iff (∀ place ∈ d.nodes.keys, ∀ part ∈ place, Path.IsName part) <| by
  simp only [Std.ExtTreeMap.mem_keys]
  rfl

namespace Workspace

/-- The endings of the files that are indexed. The registry is evaluated here and nowhere else. -/
theorem toList_fileTypes : fileTypes.toList =
    ["constant", "dbrow", "dbtable", "enum", "hunt", "idk", "if", "inv", "jm2", "loc", "mesanim", "npc",
      "obj", "pack", "param", "rs2", "seq", "spotanim", "struct", "varbit", "varn", "varp", "vars"] := by
  decide +kernel

/-- A file is indexed exactly if its name, up to a `#` or `?`, has one of these endings. -/
theorem isIndexed_iff {file : String} :
    isIndexed file = true ↔ (Path.parse (withoutQuery file)).extension ∈ fileTypes.toList :=
  Std.ExtTreeSet.mem_toList.symm

-- The table of file types is long and never evaluated here.
attribute [local irreducible] isIndexed

/-- Reading files leaves out those that have no text. -/
theorem readAll_sublist [Codecs] {w : Workspace} {d : Disk} {files : List String}
    {texts : List (String × String)} (h : w.readAll d files = .ok texts) :
    (texts.map Prod.fst).Sublist (files.map w.fileKey) := by
  obtain ⟨read, hread, hkept⟩ := bind_eq_ok.1 h
  cases hkept
  clear h
  induction files generalizing read with
  | nil =>
    cases hread
    exact .slnil
  | cons file files ih =>
    rw [List.mapM_cons] at hread
    obtain ⟨text, htext, hread⟩ := bind_eq_ok.1 hread
    obtain ⟨rest, hrest, hread⟩ := bind_eq_ok.1 hread
    obtain ⟨found, -, htext⟩ := bind_eq_ok.1 htext
    cases hread
    cases htext
    cases found with
    | none => exact (ih rest hrest).cons (w.fileKey file)
    | some found => exact (ih rest hrest).cons_cons (w.fileKey file)

/-- The places of the files that are indexed. -/
private theorem place_of_mem {w : Workspace} {d : Disk} (hd : d.WellNamed) {place : List String}
    (h : place ∈ d.placesBelow w.root.parts) : ∀ part ∈ place, Path.IsName part :=
  hd place (Std.ExtTreeMap.mem_keys.1 (List.mem_filter.1 h).1)

/-- A file that is found is kept under its path, seen from the root once more if the root is relative. -/
private theorem fileKey_place {w : Workspace} {d : Disk} (hd : d.WellNamed) {place : List String}
    (h : place ∈ d.placesBelow w.root.parts) :
    w.fileKey (Path.mk w.root.root place).text = (w.root.join ⟨w.root.root, place⟩).text := by
  rw [fileKey, Path.parse_text (place_of_mem hd h)]

private theorem root_join (root : Path) (place : List String) :
    root.join ⟨root.root, place⟩ =
      ⟨root.root, if root.isAbsolute then place else root.parts ++ place⟩ := by
  unfold Path.join
  change (if root.isAbsolute then _ else _) = _
  split <;> rfl

private theorem isName_root_join {w : Workspace} {d : Disk} (hd : d.WellNamed) {place : List String}
    (h : place ∈ d.placesBelow w.root.parts) :
    ∀ part ∈ (w.root.join ⟨w.root.root, place⟩).parts, Path.IsName part := by
  have hplace := place_of_mem hd h
  rw [root_join]
  split
  · exact hplace
  · intro part hpart
    rcases List.mem_append.1 hpart with hroot | hpart
    · -- What lies below the root has the parts of the root in front.
      have hfront := List.isPrefixOf_iff_prefix.1 (Bool.and_eq_true_iff.1 (List.mem_filter.1 h).2).1
      exact hplace part (hfront.subset hroot)
    · exact hplace part hpart

theorem fileKey?_of_mem_findFiles {w : Workspace} {d : Disk} (hd : d.WellNamed) {file : String}
    (h : file ∈ w.findFiles d) : fileKey? (w.fileKey file) = some (w.fileKey file) := by
  obtain ⟨place, hp, rfl⟩ := List.mem_map.1 h
  have hplace := (List.mem_filter.1 hp).1
  rw [fileKey_place hd hplace]
  exact Path.fileKey?_text (isName_root_join hd hplace)

/-- Under a root that is absolute, a file that is found is kept under its path. -/
theorem fileKey_of_mem_findFiles {w : Workspace} {d : Disk} (hd : d.WellNamed)
    (hroot : w.root.isAbsolute = true) {file : String} (h : file ∈ w.findFiles d) :
    w.fileKey file = file := by
  obtain ⟨place, hp, rfl⟩ := List.mem_map.1 h
  rw [fileKey_place hd (List.mem_filter.1 hp).1, root_join, if_pos hroot]

/-- The files of a tree have different keys. -/
theorem findFiles_keys_nodup {d : Disk} (hd : d.WellNamed) (w : Workspace) :
    ((w.findFiles d).map fun file => fileKey? (w.fileKey file)).Nodup := by
  have hplaces : (d.placesBelow w.root.parts).Pairwise fun a b => compare a b ≠ .eq :=
    Std.ExtTreeMap.distinct_keys.filter _
  unfold findFiles
  rw [List.map_map]
  refine List.pairwise_map.2 ((hplaces.filter _).imp_of_mem fun {a b} ha hb hab hkey => hab ?_)
  -- A place is read back from the key of its file.
  have ha := (List.mem_filter.1 ha).1
  have hb := (List.mem_filter.1 hb).1
  have hna := isName_root_join hd ha
  have hnb := isName_root_join hd hb
  dsimp only [Function.comp_apply] at hkey
  rw [fileKey_place hd ha, fileKey_place hd hb, Path.fileKey?_text hna, Path.fileKey?_text hnb] at hkey
  have hpath := Path.parse_text hna
  rw [Option.some.inj hkey, Path.parse_text hnb, root_join, root_join] at hpath
  have hparts := (Path.mk.inj hpath).2
  have hab : b = a := by
    split at hparts
    · exact hparts
    · exact List.append_cancel_left hparts
  rw [hab]
  exact Std.ReflCmp.compare_self

/-- Files that are read for a rebuild have different keys. -/
theorem readAll_keys_nodup [Codecs] {w : Workspace} {d : Disk} (hd : d.WellNamed)
    {texts : List (String × String)} (h : w.readAll d (w.findFiles d) = .ok texts) :
    (texts.map fun file => fileKey? file.1).Nodup := by
  have hsub := (readAll_sublist h).map fileKey?
  rw [List.map_map, List.map_map] at hsub
  exact hsub.nodup (findFiles_keys_nodup hd w)

end Workspace

end ScriptIndex
