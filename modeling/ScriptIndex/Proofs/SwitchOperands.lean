import ScriptIndex.Proofs.PassStates
import ScriptIndex.Proofs.SharedKeys

/-! The operands of switches. A switch over a mapped type lets its category hold from the next line on; a
switch over an unmapped one writes nothing. A value behind a `case` so takes the type of the last switch
above it that is over a mapped type, which need not be the one that it stands under. -/
namespace ScriptIndex

namespace Breakpoints

section
variable {b : Breakpoints} {file f : String} (hf : fileKey? file = some f)
include hf

/-- If what a line says starts to hold on the next one, the last of what the lines before some line say
holds on it. -/
private theorem get?_eq_getLast? {α : Type} {lines : List α} {noted : α → Option String}
    (hstart : ∀ m ≤ 0, b.valueAt f m = none)
    (hbehind : ∀ m : Nat, b.valueAt f (m + 1) = (lines[m]?).bind noted) (n : Int) :
    b.get? n file = ((lines.take n.toNat).filterMap noted).getLast? := by
  -- No value has started to hold on a line above the first.
  have habove (m : Int) (hm : m ≤ 0) : b.get? m file = none :=
    (get?_eq_none_iff hf).2 fun k hk => hstart k (hk.trans hm)
  rcases Int.le_total n 0 with hn | hn
  · rw [habove n hn, Int.toNat_of_nonpos hn]
    rfl
  · lift n to Nat using hn
    rw [Int.toNat_natCast]
    induction n with
    | zero => exact habove 0 le_rfl
    | succ n ih =>
      rw [Int.natCast_succ, get?_succ hf, hbehind, ih, List.take_add_one, List.filterMap_append,
        List.getLast?_append]
      cases lines[n]? with
      | none => rfl
      | some line => cases noted line <;> simp

end

end Breakpoints

namespace Index

def operand? (keyword : String) : Option Category :=
  some (Category.ofKeyword keyword) |>.filter (· ≠ .unknown)

def lineOperand? (line : Line) : Option Category :=
  (switchKeyword? line).bind operand?

def switchesAbove (lines : List Line) (line : Int) : List String :=
  (lines.take line.toNat).filterMap switchKeyword?

def nearestOperand? (lines : List Line) (line : Int) : Option Category :=
  (switchesAbove lines line).getLast?.bind operand?

/-- The category of the operands of the nearest switch above a line that is over a mapped type. -/
def mappedOperand? (lines : List Line) (line : Int) : Option Category :=
  ((switchesAbove lines line).filterMap operand?).getLast?

/-- Whether the nearest switch above a line is over an unmapped type and some switch above that one is
not. -/
def Overlooked (lines : List Line) (line : Int) : Prop :=
  nearestOperand? lines line = none ∧ ∃ keyword ∈ switchesAbove lines line, operand? keyword ≠ none

/-- The two categories differ exactly where the nearest switch is overlooked. -/
private theorem mappedOperand?_eq_nearestOperand?_iff {lines : List Line} {line : Int} :
    mappedOperand? lines line = nearestOperand? lines line ↔ ¬ Overlooked lines line := by
  unfold Overlooked mappedOperand? nearestOperand?
  generalize switchesAbove lines line = keywords
  rcases List.eq_nil_or_concat keywords with rfl | ⟨above, keyword, rfl⟩
  · simp
  · rw [List.concat_eq_append, List.filterMap_append, List.getLast?_append, List.getLast?_append]
    cases hoperand : operand? keyword with
    | none => simp [hoperand]
    | some operand => simp [hoperand]

private theorem ofId?_id (c : Category) : Category.ofId? c.id = some c := by
  have hall : ∀ c ∈ Category.all, Category.ofId? c.id = some c := by decide +kernel
  exact hall c (Category.mem_all c)

private theorem id_injective : Function.Injective Category.id := by
  intro c d h
  have hcd := ofId?_id c
  rw [h, ofId?_id] at hcd
  exact (Option.some.inj hcd).symm

private theorem id_ne_empty (c : Category) : c.id ≠ "" := by
  have hall : ∀ c ∈ Category.all, c.id ≠ "" := by decide +kernel
  exact hall c (Category.mem_all c)

/-- A line of a script lets the category of its switch hold. -/
private theorem switchValue?_eq {l : FileLine} (hrs2 : ScriptCache.hasEnding ".rs2" l.file = true) :
    l.switchValue? = (lineOperand? l.text).map Category.id := by
  unfold FileLine.switchValue? lineOperand? operand?
  rw [if_pos hrs2]
  cases switchKeyword? l.text with
  | none => rfl
  | some keyword =>
    by_cases hmapped : Category.ofKeyword keyword = .unknown <;> simp [hmapped, Option.filter]

/-- A line of a script leaves what it says behind it, and everything else as it is. -/
private theorem valueAt_switches_next [KeyOrder] {i : Index} {l : FileLine} {f : String}
    (hf : fileKey? l.file = some f)
    (hrs2 : ScriptCache.hasEnding ".rs2" l.file = true) (m : Int) :
    (i.next l).switches.valueAt f m = if (l.number + 1 : Int) = m then
        ((lineOperand? l.text).map Category.id).or (i.switches.valueAt f m)
      else i.switches.valueAt f m := by
  have hprecedes : l.Precedes f m ↔ (l.number + 1 : Int) = m := and_iff_right hf
  have hnamed : ((lineOperand? l.text).map Category.id).filter (· ≠ "") =
      (lineOperand? l.text).map Category.id := by
    cases lineOperand? l.text with
    | none => rfl
    | some c => simp [Option.filter, id_ne_empty c]
  rw [switches_next, Breakpoints.valueAt_note, switchValue?_eq hrs2, hnamed]
  simp only [hprecedes]

/-- Behind the lines of a script the categories of their switches hold, and nothing else has changed. -/
theorem valueAt_switches_after [KeyOrder] {i : Index} {file f : String} (hf : fileKey? file = some f)
    (hrs2 : ScriptCache.hasEnding ".rs2" file = true) {lines rest : List Line} {number : Nat}
    (h : lines.drop number = rest) :
    let j := i.after (FileLine.linesFrom file lines number rest h)
    (∀ m : Int, m ≤ number → j.switches.valueAt f m = i.switches.valueAt f m) ∧
      ∀ m : Nat, j.switches.valueAt f (number + m + 1) =
        (((rest[m]?).bind lineOperand?).map Category.id).or (i.switches.valueAt f (number + m + 1)) := by
  induction rest generalizing i number with
  | nil => simp [FileLine.linesFrom, after]
  | cons text rest ih =>
    rw [FileLine.linesFrom, after_cons]
    generalize hl : FileLine.mk file lines number text _ = l
    obtain ⟨rfl, rfl, rfl⟩ : l.file = file ∧ l.number = number ∧ l.text = text := by simp [← hl]
    have hrest : lines.drop (l.number + 1) = rest := by
      rw [← List.drop_drop, h]
      rfl
    obtain ⟨hstart, hbehind⟩ := ih (i := i.next l) hrest
    have hnext := valueAt_switches_next (i := i) hf hrs2
    constructor
    · intro m hm
      rw [hstart m (by omega), hnext, if_neg (by omega)]
    · intro m
      cases m with
      | zero =>
        rw [hstart _ (by omega), hnext, if_pos (by omega)]
        rfl
      | succ m =>
        have hm : (l.number + (m + 1 : Nat) + 1 : Int) = (l.number + 1 : Nat) + m + 1 := by omega
        rw [hm, hbehind, hnext, if_neg (by omega)]
        rfl

/-- A script file has a key. -/
private theorem exists_fileKey_of_hasEnding {file : String}
    (hrs2 : ScriptCache.hasEnding ".rs2" file = true) :
    ∃ f, fileKey? file = some f := by
  have hne : file ≠ "" := by
    rintro rfl
    simp [ScriptCache.hasEnding] at hrs2
  exact ⟨_, if_neg hne⟩

/-- On a line of a script that is indexed anew the category of the nearest switch over a mapped type
holds. -/
theorem switches_after_eq [KeyOrder] {i : Index} {file : String}
    (hrs2 : ScriptCache.hasEnding ".rs2" file = true)
    (hnone : ∀ line, i.switches.get? line file = none) (text : String) (line : Int) :
    (i.after (FileLine.ofFile file text)).switches.get? line file =
      (mappedOperand? (Text.splitLines text.toList) line).map Category.id := by
  obtain ⟨f, hf⟩ := exists_fileKey_of_hasEnding hrs2
  have hbare (m : Int) : i.switches.valueAt f m = none :=
    (Breakpoints.get?_eq_none_iff hf).1 (hnone m) m le_rfl
  obtain ⟨hstart, hbehind⟩ := valueAt_switches_after (i := i) hf hrs2
    (List.drop_zero (l := Text.splitLines text.toList))
  have hlines (m : Nat) : (i.after (FileLine.ofFile file text)).switches.valueAt f (m + 1) =
      ((Text.splitLines text.toList)[m]?).bind fun line => (lineOperand? line).map Category.id := by
    have hm := hbehind m
    rw [hbare, Option.or_none, Option.map_bind, Int.natCast_zero, Int.zero_add] at hm
    exact hm
  have hlast :
      ((switchesAbove (Text.splitLines text.toList) line).filterMap operand?).map Category.id =
        ((Text.splitLines text.toList).take line.toNat).filterMap fun line =>
          (lineOperand? line).map Category.id := by
    rw [switchesAbove, List.filterMap_filterMap, List.map_filterMap]
    rfl
  rw [mappedOperand?, ← List.getLast?_map, hlast]
  exact Breakpoints.get?_eq_getLast? hf (fun m hm => (hstart m hm).trans (hbare m)) hlines line

end Index

/-- Whether a word is a value behind a `case`. -/
def WordContext.IsCaseValue (ctx : WordContext) : Prop :=
  ctx.dialect = "rs2" ∧ ctx.word.index ≠ 0 ∧ ctx.word.value ≠ "default" ∧
    LineShape.isCaseLine ctx.line.text = true ∧
    (Text.find? " :".toList ctx.line.text).any (ctx.cursor < ·) = true

private theorem Rules.switchCase_eq {ctx : WordContext} (hcase : ctx.IsCaseValue) (i : Index) :
    Rules.switchCase ctx i = some (.reference
      (((i.switches.get? ctx.line.number ctx.line.file).bind Category.ofId?).getD .unknown)) := by
  unfold Rules.switchCase
  unfold WordContext.IsCaseValue at hcase
  rw [if_pos hcase]
  cases (i.switches.get? ctx.line.number ctx.line.file).bind Category.ofId? <;> rfl

namespace Index

/-- Where nothing is known of the switches of a script yet, indexing it succeeds, and then the category of
the last switch above a line that is over a mapped type holds on the line, and a value behind a `case` on it
is taken for one of that category. This is the category of the nearest switch exactly unless that one is
over an unmapped type and a switch above it is not. -/
theorem parse_switches [KeyOrder] (i : Index) {file : String}
    (hrs2 : ScriptCache.hasEnding ".rs2" file = true)
    (hnone : ∀ line, i.switches.get? line file = none) (text : String) :
    let lines := Text.splitLines text.toList
    ∃ j, i.parse file text = .ok j ∧ ∀ line : Int,
      j.switches.get? line file = (mappedOperand? lines line).map Category.id ∧
      (∀ ctx : WordContext, ctx.IsCaseValue → ctx.line.file = file → ctx.line.number = line →
        Rules.switchCase ctx j = some (.reference ((mappedOperand? lines line).getD .unknown))) ∧
      (j.switches.get? line file = (nearestOperand? lines line).map Category.id ↔
        ¬ Overlooked lines line) := by
  intro lines
  refine ⟨_, i.parse_eq file text, fun line => ?_⟩
  have hget := switches_after_eq hrs2 hnone text line
  refine ⟨hget, ?_, ?_⟩
  · rintro ctx hcase rfl rfl
    rw [Rules.switchCase_eq hcase, hget, Option.bind_map]
    simp only [Function.comp_def, ofId?_id, Option.bind_fun_some]
    rfl
  · rw [hget, ← mappedOperand?_eq_nearestOperand?_iff]
    exact (Option.map_injective id_injective).eq_iff

section
attribute [local instance] KeyOrder.ascending

/-- The inner of two switches is over a mapped type: its category holds below it. -/
theorem nested_switch_holds :
    let text := "switch_obj($item) \x7b\nswitch_loc($place) \x7b\ncase altar : return;"
    let lines := Text.splitLines text.toList
    ScriptCache.hasEnding ".rs2" "a.rs2" = true ∧
      (∀ line, ({} : Index).switches.get? line "a.rs2" = none) ∧
      ∃ j, ({} : Index).parse "a.rs2" text = .ok j ∧ j.switches.get? 2 "a.rs2" = some "LOC" ∧
        j.switches.get? 2 "a.rs2" = (nearestOperand? lines 2).map Category.id := by
  intro text lines
  have hrs2 : ScriptCache.hasEnding ".rs2" "a.rs2" = true := by decide
  have hnone (line : Int) : ({} : Index).switches.get? line "a.rs2" = none := by
    simp [Breakpoints.get?]
  have hloc : mappedOperand? lines 2 = some .loc := by decide +kernel
  have hnearest : nearestOperand? lines 2 = some .loc := by decide +kernel
  obtain ⟨j, hj, hholds⟩ := parse_switches {} hrs2 hnone text
  obtain ⟨hget, -, hagrees⟩ := hholds 2
  refine ⟨hrs2, hnone, j, hj, ?_, hagrees.2 ?_⟩
  · rw [hget, hloc]
    rfl
  · rintro ⟨hno, -⟩
    rw [hnearest] at hno
    cases hno

/-- The inner of two switches is over an unmapped type: the category of the outer one holds below it, and
the values behind a `case` there are taken for objs. -/
theorem unmapped_switch_overlooked :
    let text := "switch_obj($item) \x7b\nswitch_frob($state) \x7b\ncase ready : return;"
    let ctx : WordContext := ⟨.ofLine "case ready : return;".toList 2 "a.rs2", ⟨"ready", 5, 1⟩, 5⟩
    nearestOperand? (Text.splitLines text.toList) 2 = none ∧ ctx.IsCaseValue ∧
      ∃ j, ({} : Index).parse "a.rs2" text = .ok j ∧ j.switches.get? 2 "a.rs2" = some "OBJ" ∧
        Rules.switchCase ctx j = some (.reference .obj) := by
  intro text ctx
  have hcase : ctx.IsCaseValue := by
    unfold WordContext.IsCaseValue
    decide +kernel
  have hget := switches_after_eq (i := {})
    (show ScriptCache.hasEnding ".rs2" "a.rs2" = true by decide) (fun line => by simp [Breakpoints.get?]) text 2
  have hobj : mappedOperand? (Text.splitLines text.toList) 2 = some .obj := by decide +kernel
  rw [hobj] at hget
  refine ⟨by decide +kernel, hcase, _, Index.parse_eq {} "a.rs2" text, hget, ?_⟩
  rw [Rules.switchCase_eq hcase]
  simp only [ctx, LineContext.ofLine]
  rw [hget]
  rfl

end

end Index

end ScriptIndex
