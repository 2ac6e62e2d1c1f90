import ScriptIndex.Proofs.Classification
import ScriptIndex.Proofs.DeclaringWords
import ScriptIndex.Proofs.ScriptVariables

/-! Names of local variables. The scripts of a file record where a variable `$name` stands, and the rules
classify the word behind the `$` anew, from its line and the index. Both agree where the name is a whole
word of its line and no rule that is asked before the one for local variables takes the word. -/
namespace ScriptIndex

namespace LineShape

private theorem after?_eq_some {c : Char} {text rest : List Char} (h : after? c text = some rest) :
    text = c :: rest := by
  unfold after? at h
  split at h
  · split at h
    · rename_i hc
      cases h
      rw [hc]
    · cases h
  · cases h

private theorem afterRun?_eq_some {p : Char → Bool} {text rest : List Char}
    (h : afterRun? p text = some rest) :
    ∃ run, text = run ++ rest ∧ ∀ c ∈ run, p c = true := by
  unfold afterRun? at h
  split at h
  · cases h
  · cases h
    exact ⟨text.takeWhile p, List.takeWhile_append_dropWhile.symm,
      fun c hc => List.mem_takeWhile_imp hc⟩

def IsPlain (text : List Char) : Prop :=
  ∀ c ∈ text, c ≠ '(' ∧ c ≠ ')' ∧ c ≠ '/'

def Unparenthesized (text : List Char) : Prop :=
  ∀ c ∈ text, c ≠ '(' ∧ c ≠ ')'

instance (text : List Char) : Decidable (Unparenthesized text) :=
  List.decidableBAll (fun c => c ≠ '(' ∧ c ≠ ')') text

theorem IsPlain.unparenthesized {text : List Char} (h : IsPlain text) : Unparenthesized text :=
  fun c hc => ⟨(h c hc).1, (h c hc).2.1⟩

def group (inner : List Char) : List Char :=
  '(' :: (inner ++ [')'])

/-- The brackets of a script header hold no other bracket, no parenthesis and no slash. -/
private theorem exists_brackets {line : Line} (h : isTriggerLine line = true) :
    ∃ names rest, line = names ++ ']' :: rest ∧ ']' ∉ names ∧ IsPlain names := by
  obtain ⟨rest, hrest⟩ := Option.isSome_iff_exists.1 h
  simp only [Option.bind_eq_bind, Option.bind_eq_some_iff] at hrest
  obtain ⟨afterOpening, hopening, afterTrigger, htrigger, afterComma, hcomma, afterName, hname,
    hclosing⟩ := hrest
  obtain ⟨trigger, rfl, htriggerChars⟩ := afterRun?_eq_some htrigger
  obtain ⟨name, hnameSplit, hnameChars⟩ := afterRun?_eq_some hname
  have hword (c : Char) (hc : (Text.isWordChar c || c == ':') = true) :
      c ≠ ']' ∧ c ≠ '(' ∧ c ≠ ')' ∧ c ≠ '/' := by
    refine ⟨?_, ?_, ?_, ?_⟩ <;> rintro rfl <;> exact absurd hc (by decide)
  have hdot : ∃ dot, afterComma = dot ++ name ++ ']' :: rest ∧ ∀ c ∈ dot, c = '.' := by
    rw [after?_eq_some hclosing] at hnameSplit
    split at hnameSplit
    · exact ⟨['.'], by rw [hnameSplit]; rfl, by simp⟩
    · exact ⟨[], hnameSplit, by simp⟩
  obtain ⟨dot, hdot, hdotChars⟩ := hdot
  have hnames : ∀ c ∈ '[' :: (trigger ++ ',' :: (dot ++ name)),
      c ≠ ']' ∧ c ≠ '(' ∧ c ≠ ')' ∧ c ≠ '/' := by
    intro c hc
    simp only [List.mem_cons, List.mem_append] at hc
    rcases hc with rfl | hc | rfl | hc | hc
    · decide
    · exact hword c (by simp [htriggerChars c hc])
    · decide
    · rw [hdotChars c hc]
      decide
    · exact hword c (hnameChars c hc)
  refine ⟨'[' :: (trigger ++ ',' :: (dot ++ name)), rest, ?_, fun hm => (hnames _ hm).1 rfl,
    fun c hc => (hnames c hc).2⟩
  rw [after?_eq_some hopening, after?_eq_some hcomma, hdot]
  simp

/-- At the start of a text there is a group in parentheses, or none. -/
private theorem take_groupLength (text : List Char) :
    ∃ groups : List (List Char), groups.length ≤ 1 ∧ (∀ g ∈ groups, IsPlain g) ∧
      text.take (groupLength text) = groups.flatMap group := by
  unfold groupLength
  split
  · rename_i rest
    dsimp only
    split
    · rename_i behind hclosing
      refine ⟨[rest.takeWhile fun c => Text.isWordChar c || c == ',' || c == ' ' || c == '$'],
        Nat.le_refl 1, List.forall_mem_singleton.2 fun c hc => ?_, ?_⟩
      · have hp := List.mem_takeWhile_imp hc
        refine ⟨?_, ?_, ?_⟩ <;> rintro rfl <;> exact absurd hp (by decide)
      · rw [List.take_succ_cons, List.take_add_one, Word.take_takeWhile, ← List.head?_drop, hclosing]
        simp [group]
    · exact ⟨[], Nat.zero_le 1, by simp, rfl⟩
  · exact ⟨[], Nat.zero_le 1, by simp, rfl⟩

/-- A script header is its brackets and up to two groups in parentheses. -/
theorem exists_header {line : Line} (h : isTriggerLine line = true) :
    ∃ (brackets : List Char) (groups : List (List Char)), IsPlain brackets ∧ groups.length ≤ 2 ∧
      (∀ g ∈ groups, IsPlain g) ∧ line.take (headerLength line) = brackets ++ groups.flatMap group := by
  obtain ⟨names, rest, hline, hbracket, hplain⟩ := exists_brackets h
  have hbrackets : line.takeWhile (· ≠ ']') = names := by
    rw [hline, List.takeWhile_append_of_pos fun c hc => by
      simpa using fun he : c = ']' => hbracket (he ▸ hc)]
    simp
  have htake : line.take (names.length + 1) = names ++ [']'] := by
    rw [hline, List.take_length_add_append]
    rfl
  unfold headerLength
  rw [hbrackets, List.take_add, List.take_add, htake]
  obtain ⟨first, hfirstLength, hfirst, hfirstEq⟩ := take_groupLength (line.drop (names.length + 1))
  obtain ⟨second, hsecondLength, hsecond, hsecondEq⟩ := take_groupLength
    (line.drop (names.length + 1 + groupLength (line.drop (names.length + 1))))
  refine ⟨names ++ [']'], first ++ second, fun c hc => ?_, ?_, ?_, ?_⟩
  · rcases List.mem_append.1 hc with hc | hc
    · exact hplain c hc
    · rw [List.mem_singleton.1 hc]
      decide
  · rw [List.length_append]
    omega
  · exact fun g hg => (List.mem_append.1 hg).elim (hfirst g) (hsecond g)
  · rw [hfirstEq, hsecondEq, List.flatMap_append, List.append_assoc]

/-- A script header holds no slash, so a comment can only stand behind it. -/
private theorem slash_not_mem_header {line : Line} (h : isTriggerLine line = true) :
    '/' ∉ line.take (headerLength line) := by
  obtain ⟨brackets, groups, hbrackets, -, hgroups, heq⟩ := exists_header h
  rw [heq]
  intro hm
  rcases List.mem_append.1 hm with hm | hm
  · exact (hbrackets _ hm).2.2 rfl
  · obtain ⟨g, hg, hm⟩ := List.mem_flatMap.1 hm
    simp only [group, List.mem_cons, List.mem_append, List.not_mem_nil, or_false] at hm
    rcases hm with hm | hm | hm
    · exact absurd hm (by decide)
    · exact (hgroups g hg _ hm).2.2 rfl
    · exact absurd hm (by decide)

private theorem withoutComment_header {line : Line} (h : isTriggerLine line = true) :
    withoutComment line =
      line.take (headerLength line) ++ withoutComment (line.drop (headerLength line)) := by
  have hbefore : withoutComment (line.take (headerLength line) ++ line.drop (headerLength line)) =
      line.take (headerLength line) ++ withoutComment (line.drop (headerLength line)) :=
    Text.before_append (slash_not_mem_header h) _
  rwa [List.take_append_drop] at hbefore

/-- Behind the header, a script line is its code, whether comments are left out before or after. -/
theorem drop_withoutComment_header {line : Line} (h : isTriggerLine line = true) :
    (withoutComment line).drop (headerLength line) =
      withoutComment (line.drop (headerLength line)) := by
  rw [withoutComment_header h, List.drop_append, List.drop_eq_nil_of_le (by simp), List.nil_append,
    List.length_take]
  rcases Nat.le_total (headerLength line) line.length with hle | hle
  · rw [Nat.min_eq_left hle, Nat.sub_self, List.drop_zero]
  · -- Nothing stands behind the header.
    rw [List.drop_eq_nil_of_le hle]
    simp [withoutComment, Text.before, Text.cut?]

end LineShape

namespace ScriptBlock
variable {file : String} {lines : List Line} {start : Nat} {first : Line}

/-- An event of a script stands on a line of the file, where the name of its variable is shown and is no
comment. -/
private theorem events_uncommented (hfirst : lines[start]? = some first)
    (htrigger : LineShape.isTriggerLine first = true) {e : Event}
    (he : e ∈ events file (sourceAt lines start first)) :
    ∃ (number column : Nat) (line : Line), lines[number]? = some line ∧
      Shown file number (LineShape.withoutComment line) column e := by
  have hheader := LineShape.withoutComment_header htrigger
  rcases List.mem_append.1 he with he | he
  · obtain ⟨column, -, hs⟩ := headerEvents_shown he
    refine ⟨start, column, first, hfirst, hs.location, ?_⟩
    rw [hheader, List.drop_append]
    exact hs.text.trans (List.prefix_append _ _)
  · obtain ⟨c, hc, he⟩ := List.mem_flatMap.1 he
    obtain ⟨w, hw, -, hn, hloc⟩ := mem_wordEvents he
    have hshown : w.value.toList <+: (LineShape.withoutComment c.text).drop w.start :=
      Word.prefix_of_mem_scan hw
    suffices hline : ∃ line, lines[c.line]? = some line ∧
        w.value.toList <+: (LineShape.withoutComment line).drop (w.start + c.column) by
      obtain ⟨line, hl, htext⟩ := hline
      exact ⟨c.line, w.start + c.column, line, hl, by rw [hn]; exact hloc, by rw [hn]; exact htext⟩
    rcases List.mem_cons.1 hc with rfl | hc
    · refine ⟨first, hfirst, ?_⟩
      dsimp only at hshown ⊢
      rwa [Nat.add_comm, ← List.drop_drop, LineShape.drop_withoutComment_header htrigger]
    · obtain ⟨m, line, hl, rfl, -⟩ := mem_split_code.1 hc
      rw [List.getElem?_drop] at hl
      exact ⟨line, hl, hshown⟩

end ScriptBlock

namespace Rules

/-- Whether the rules that are asked before the one for local variables leave a word to it, and the word
is not passed over as such. -/
structure Unclaimed (index : Index) (ctx : WordContext) : Prop where
  notNull : ctx.word.value ≠ "null"
  notPacked : ¬ (ctx.dialect = "pack" ∧ ctx.word.index = 1)
  notCoordinate : LineShape.isCoordinate ctx.word.value = false
  notColor : LineShape.isColor ctx.word.value = false
  notNumber : LineShape.isNumber ctx.word.value = false
  /-- A command with the name of the word has parameters, which do not follow, and is not declared
  there. -/
  notCommand : ∀ s ∈ index.symbols.get? ctx.word.value .command,
    (s.signature.any fun s => !s.params.isEmpty) = true ∧ ctx.charAfter? ≠ some '(' ∧
      ¬ ((Path.parse ctx.line.file).name = engineFile ∧ ctx.word.index = 1 ∧
        LineShape.isTriggerLine ctx.line.text = true)

variable {index : Index} {ctx : WordContext}

/-- A word is left over exactly if none of these rules has an answer. -/
private theorem unclaimed_iff : Unclaimed index ctx ↔
    ctx.word.value ≠ "null" ∧ pack ctx = none ∧ literal ctx = none ∧ command ctx index = none := by
  have hpack : pack ctx = none ↔ ¬ (ctx.dialect = "pack" ∧ ctx.word.index = 1) := by
    unfold pack
    split <;> simp [*]
  have hliteral : literal ctx = none ↔ LineShape.isCoordinate ctx.word.value = false ∧
      LineShape.isColor ctx.word.value = false ∧ LineShape.isNumber ctx.word.value = false := by
    unfold literal
    dsimp only
    split
    · simp [*]
    · split
      · simp [*]
      · split <;> simp [*]
  have hcommand : command ctx index = none ↔ ∀ s ∈ index.symbols.get? ctx.word.value .command,
      (s.signature.any fun s => !s.params.isEmpty) = true ∧ ctx.charAfter? ≠ some '(' ∧
        ¬ ((Path.parse ctx.line.file).name = engineFile ∧ ctx.word.index = 1 ∧
          LineShape.isTriggerLine ctx.line.text = true) := by
    unfold command
    cases index.symbols.get? ctx.word.value .command with
    | none => simp
    | some s =>
      dsimp only
      split
      · simp [*]
      · split <;> simp_all
  rw [hpack, hliteral, hcommand]
  exact ⟨fun h => ⟨h.notNull, h.notPacked, ⟨h.notCoordinate, h.notColor, h.notNumber⟩, h.notCommand⟩,
    fun ⟨hnull, hpack, ⟨hcoordinate, hcolor, hnumber⟩, hcommand⟩ =>
      ⟨hnull, hpack, hcoordinate, hcolor, hnumber, hcommand⟩⟩

/-- No type keyword stands for local variables. -/
private theorem ofKeyword_ne_localVar (keyword : String) : Category.ofKeyword keyword ≠ .localVar := by
  unfold Category.ofKeyword
  cases hf : Category.all.find? fun c => c.profile.keywords.contains keyword with
  | none => decide
  | some c =>
    rintro (rfl : c = .localVar)
    have hkeywords := List.find?_some hf
    simp [Category.profile] at hkeywords

private theorem pack_ne_localVar {r : Role} (h : pack ctx = some r) : r.category ≠ .localVar := by
  rcases pack_eq_some h with rfl | rfl | ⟨keyword, rfl⟩
  · decide
  · decide
  · exact ofKeyword_ne_localVar keyword

private theorem literal_ne_localVar {r : Role} (h : literal ctx = some r) : r.category ≠ .localVar := by
  rcases literal_eq_some h with rfl | rfl | rfl <;> decide

private theorem command_ne_localVar {r : Role} (h : command ctx index = some r) :
    r.category ≠ .localVar := by
  rcases command_eq_some h with rfl | ⟨rfl, -⟩ <;> decide

private theorem exists_localVar (hdollar : ctx.charBefore? = some '$') : ∃ r, localVar ctx = some r := by
  unfold localVar
  rw [if_pos hdollar]
  split
  · exact ⟨_, rfl⟩
  · dsimp only
    split <;> split <;> exact ⟨_, rfl⟩

/-- A word behind a `$` is classified as a local variable exactly if the rules before leave it over. -/
private theorem classify_localVar_iff [KeyOrder] (hdollar : ctx.charBefore? = some '$') :
    (∃ r, Rule.classify ctx index = some r ∧ r.category = .localVar) ↔
      pack ctx = none ∧ literal ctx = none ∧ command ctx index = none := by
  constructor
  · rintro ⟨r, hr, hcategory⟩
    have hnot {r' : Role} (h : Rule.classify ctx index = some r') : ¬ r'.category ≠ .localVar := by
      cases hr.symm.trans h
      exact not_not_intro hcategory
    have hpack : pack ctx = none := by
      refine Option.eq_none_iff_forall_ne_some.2 fun r' hp => hnot ?_ (pack_ne_localVar hp)
      rw [Rule.classify_eq, Rule.front, hp]
      rfl
    have hliteral : literal ctx = none := by
      refine Option.eq_none_iff_forall_ne_some.2 fun r' hl => hnot ?_ (literal_ne_localVar hl)
      rw [Rule.classify_eq, Rule.front, hpack, hl]
      rfl
    refine ⟨hpack, hliteral, Option.eq_none_iff_forall_ne_some.2 fun r' hc => ?_⟩
    refine hnot (Rule.classify_of_command? ?_) (command_ne_localVar hc)
    rw [Rule.command?, if_neg (by simp [hpack, hliteral]), hc]
  · rintro ⟨hpack, hliteral, hcommand⟩
    obtain ⟨r, hr⟩ := exists_localVar hdollar
    have hnone : Rule.command? ctx index = none := by
      rw [Rule.command?, hcommand, ite_self]
    refine ⟨r, ?_, by rcases localVar_eq_some hr with rfl | rfl <;> rfl⟩
    rw [Rule.classify_eq, Rule.front, hpack, hliteral, hnone, hr]
    rfl

end Rules

namespace Match
variable {index : Index} {ctx : WordContext}

/-- The word on a column of a line is classified with the cursor there. -/
theorem onColumn?_of_mem [KeyOrder] {line : Line} {file : String} {w : Word} {column : Nat} (number : Int)
    (hfile : file ≠ "") (hw : w ∈ Word.ofLine (LineShape.withoutComment line))
    (hs : w.start ≤ column) (he : column ≤ w.last) :
    onColumn? index line number file column =
      ofContext? ⟨.ofLine line number file, w, column⟩ index := by
  have hline : line ≠ [] := by
    rintro rfl
    cases hw
  unfold onColumn?
  rw [if_neg (by simp [hline, hfile])]
  dsimp only
  rw [LineContext.ofLine, Word.at?_ofLine hw hs he]
  rfl

/-- A word behind a `$` is found to be the local variable with a name exactly if it is the name and is
left over. -/
private theorem ofContext?_localVar_iff [KeyOrder] (hdollar : ctx.charBefore? = some '$') (name : String) :
    (∃ m, ofContext? ctx index = some m ∧ m.role.category = .localVar ∧ m.word = name) ↔
      ctx.word.value = name ∧ Rules.Unclaimed index ctx := by
  rw [Rules.unclaimed_iff, ← Rules.classify_localVar_iff hdollar]
  constructor
  · rintro ⟨m, hm, hcategory, hword⟩
    obtain ⟨hnull, role, annotations, hrole, hannotations, rfl⟩ := Index.ofContext?_eq_some.1 hm
    have hcategory : role.category = .localVar := hcategory
    rw [hcategory] at hannotations
    cases hannotations
    exact ⟨hword, hnull, role, hrole, hcategory⟩
  · rintro ⟨hword, hnull, role, hrole, hcategory⟩
    have hannotations : Annotations.of? role.category ctx index =
        some { Annotations.plain ctx.word with packId := Annotations.packIdOf? .localVar ctx } := by
      rw [hcategory]
      rfl
    exact ⟨_, Index.ofContext?_eq_some.2 ⟨hnull, role, _, hrole, hannotations, rfl⟩, hcategory, hword⟩

end Match

namespace ScriptCache

/-- Where the scripts of a file record a variable `$name`, this name stands, and the word behind the `$`
is found to be the local variable exactly if the name ends there and no rule that is asked before takes
the word. -/
theorem localVar_at_reference_iff [KeyOrder] (index : Index) {file : String} (text : String)
    (hfile : hasEnding ".rs2" file = true) {b : ScriptBlock}
    (hb : b ∈ (ofText (some file) (some text)).blocks) {name : String} (hne : name ≠ "")
    (hname : ∀ c ∈ name.toList, Text.isWordChar c = true) {v : Variable}
    (hv : b.named? ("$" ++ name) = some v) {l : Location} (hl : l ∈ v.references) :
    ∃ (number column : Nat) (line after : Line),
      l = .at file number column (name.length + 1) ∧
      (Text.splitLines text.toList)[number]? = some line ∧
      (LineShape.withoutComment line).drop column = '$' :: name.toList ++ after ∧
      ((∀ c ∈ after.head?, Text.isWordChar c = false) →
        ∃ w ∈ Word.ofLine (LineShape.withoutComment line), w.start = column + 1 ∧
          ((∃ m, Match.onColumn? index line number file (column + 1 : Nat) = some m ∧
              m.role.category = .localVar ∧ m.word = name) ↔
            Word.endsBefore after = true ∧
              Rules.Unclaimed index ⟨.ofLine line number file, w, column + 1⟩)) := by
  have hblocks : (ofText (some file) (some text)).blocks =
      ScriptBlock.ofLines file (Text.splitLines text.toList) := if_pos hfile
  rw [hblocks] at hb
  obtain ⟨start, first, hfirst, htrigger, rfl⟩ := ScriptBlock.mem_ofLines.1 hb
  obtain ⟨_, _, hlatest⟩ := ScriptBlock.exists_latest hv
  obtain ⟨e, he, hen, rfl⟩ := hlatest.exists_event hl
  obtain ⟨number, column, line, hline, hshown⟩ := ScriptBlock.events_uncommented hfirst htrigger he
  obtain ⟨after, hafter⟩ := hshown.text
  rw [hen, String.toList_append] at hafter
  have hdrop : (LineShape.withoutComment line).drop column = '$' :: (name.toList ++ after) :=
    hafter.symm
  refine ⟨number, column, line, after, ?_, hline, hdrop, fun hends => ?_⟩
  · rw [hshown.location, hen, String.length_append, Nat.add_comm]
    rfl
  · obtain ⟨w, hw, hstart, hvalue⟩ := Word.exists_behind_dollar hdrop (by simpa using hne) hname hends
    refine ⟨w, hw, hstart, ?_⟩
    have hpositive := Word.length_pos_of_mem hw
    have hnamed : file ≠ "" := by
      rintro rfl
      cases hfile
    have hfound : Match.onColumn? index line number file (column + 1 : Nat) =
        Match.ofContext? ⟨.ofLine line number file, w, column + 1⟩ index :=
      Match.onColumn?_of_mem number hnamed hw (by omega) (by unfold Word.last; omega)
    have hdollar : WordContext.charBefore? ⟨.ofLine line number file, w, column + 1⟩ = some '$' := by
      have hhead := congrArg List.head? hdrop
      rw [List.head?_drop] at hhead
      unfold WordContext.charBefore?
      dsimp only
      rw [if_neg (by omega), hstart]
      exact hhead
    rw [hfound, Match.ofContext?_localVar_iff hdollar, ← hvalue, String.toList_inj]

section
attribute [local instance] KeyOrder.ascending

/-- A parameter, found where the code of its script mentions it. -/
theorem mentioned_parameter_found :
    let text := "[proc,f](int $x)\ndef_int $y = $x;"
    ∃ b ∈ (ofText (some "a.rs2") (some text)).blocks, ∃ v, b.named? "$x" = some v ∧
      .at "a.rs2" 1 13 2 ∈ v.references ∧
      ∃ m, Match.onColumn? {} "def_int $y = $x;".toList 1 "a.rs2" 14 = some m ∧
        m.role.category = .localVar ∧ m.word = "x" := by
  intro text
  let cache := ofText (some "a.rs2") (some text)
  obtain ⟨b, hb, hv⟩ := List.exists_of_findSome?_eq_some
    (show cache.blocks.findSome? (·.named? "$x") = some ⟨"int", true, .at "a.rs2" 0 13 2,
      [.at "a.rs2" 0 13 2, .at "a.rs2" 1 13 2]⟩ by decide +kernel)
  have hl : Location.at "a.rs2" 1 13 2 ∈ [Location.at "a.rs2" 0 13 2, .at "a.rs2" 1 13 2] := by simp
  refine ⟨b, hb, _, hv, hl, ?_⟩
  have hname : ∀ c ∈ "x".toList, Text.isWordChar c = true :=
    List.forall_mem_singleton.2 (by decide)
  obtain ⟨number, column, line, after, hat, hline, hdrop, hword⟩ :=
    localVar_at_reference_iff {} text (by decide) hb (by decide) hname hv hl
  -- The place of the mention says which line and column are meant.
  simp only [Location.at, Position.span, Location.mk.injEq, Span.mk.injEq, Position.mk.injEq,
    true_and] at hat
  obtain ⟨⟨hnumber, hcolumn⟩, -⟩ := hat
  obtain rfl : number = 1 := by omega
  obtain rfl : column = 13 := by omega
  have hsecond : (Text.splitLines text.toList)[1]? = some "def_int $y = $x;".toList := by decide
  cases hsecond.symm.trans hline
  have hbehind : (LineShape.withoutComment "def_int $y = $x;".toList).drop 13 =
      '$' :: "x".toList ++ [';'] := by decide
  rw [hbehind, List.append_cancel_left_eq] at hdrop
  subst hdrop
  obtain ⟨w, hw, hstart, hfound⟩ := hword fun c hc => by cases hc; decide
  have hwords : Word.ofLine (LineShape.withoutComment "def_int $y = $x;".toList) =
      [⟨"def_int", 0, 0⟩, ⟨"y", 9, 1⟩, ⟨"x", 14, 2⟩] := by decide
  obtain rfl : w = ⟨"x", 14, 2⟩ := by
    rw [hwords] at hw
    simp only [List.mem_cons, List.not_mem_nil, or_false] at hw
    rcases hw with rfl | rfl | rfl
    · cases hstart
    · cases hstart
    · rfl
  refine hfound.2 ⟨by decide, ?_⟩
  exact ⟨by decide, by decide, by decide, by decide, by decide, by simp [SymbolTable.get?, Symbol.key?]⟩

/-- A variable with the name of a command that has no parameters is taken for the command. -/
theorem command_taken_for_variable :
    let text := "[proc,f]\ndef_int $count = 1;"
    ∃ index, ({} : Index).parse "/ws/engine.rs2" "[command,count]" = .ok index ∧
      ∃ b ∈ (ofText (some "a.rs2") (some text)).blocks, ∃ v, b.named? "$count" = some v ∧
        .at "a.rs2" 1 8 6 ∈ v.references ∧
        (Text.splitLines text.toList)[1]? = some "def_int $count = 1;".toList ∧
        ¬ ∃ m, Match.onColumn? index "def_int $count = 1;".toList 1 "a.rs2" 9 = some m ∧
          m.role.category = .localVar ∧ m.word = "count" := by
  intro text
  obtain ⟨b, hb, hv⟩ := List.exists_of_findSome?_eq_some
    (show (ofText (some "a.rs2") (some text)).blocks.findSome? (·.named? "$count") =
      some ⟨"int", false, .at "a.rs2" 1 8 6, [.at "a.rs2" 1 8 6]⟩ by decide +kernel)
  have hfound : (({} : Index).parse "/ws/engine.rs2" "[command,count]").toOption.bind (fun i =>
      (Match.onColumn? i "def_int $count = 1;".toList 1 "a.rs2" 9).map fun m => m.role.category) =
        some .command := by
    decide +kernel
  cases hparse : ({} : Index).parse "/ws/engine.rs2" "[command,count]" with
  | error e =>
    rw [hparse] at hfound
    cases hfound
  | ok index =>
    rw [hparse] at hfound
    refine ⟨index, rfl, b, hb, _, hv, by simp, by decide, ?_⟩
    rintro ⟨m, hm, hcategory, -⟩
    have hcommand : (Match.onColumn? index "def_int $count = 1;".toList 1 "a.rs2" 9).map
        (fun m => m.role.category) = some .command := hfound
    rw [hm, Option.map_some, hcategory] at hcommand
    cases hcommand

end

end ScriptCache

end ScriptIndex
