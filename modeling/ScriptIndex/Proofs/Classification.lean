import ScriptIndex.Proofs.LineValues
import ScriptIndex.Proofs.Readings

/-! Classification with more known. Where the command rule answers alike, a word of a line keeps its
entry when more symbols are declared elsewhere, or it had none and now refers to something; what a line
declares stays the same. -/
namespace ScriptIndex

structure Index.SameOn (file : String) (number : Int) (i j : Index) : Prop where
  switches : i.switches.get? number file = j.switches.get? number file
  returns : i.returns.get? number file = j.returns.get? number file
  sections : i.sections.get? number file = j.sections.get? number file

namespace Rules

private theorem typed_eq_reference (types : List Datum) (place : Option Nat) :
    ∃ c, typed types place = .reference c := by
  unfold typed
  split <;> exact ⟨_, rfl⟩

theorem paramLine_reference (ctx : WordContext) (i : Index) : ∃ c, paramLine ctx i = .reference c := by
  unfold paramLine
  split
  · exact ⟨_, rfl⟩
  · split
    · split
      · exact typed_eq_reference _ _
      · exact ⟨_, rfl⟩
    · exact ⟨_, rfl⟩

theorem valLine_reference [KeyOrder] (ctx : WordContext) (i : Index) : ∃ c, valLine ctx i =
    .reference c := by
  unfold valLine
  split
  · exact typed_eq_reference _ _
  · exact ⟨_, rfl⟩

theorem dataLine_reference [KeyOrder] (ctx : WordContext) (i : Index) : ∃ c, dataLine ctx i =
    .reference c := by
  unfold dataLine
  split
  · exact ⟨_, rfl⟩
  · split
    · exact ⟨_, rfl⟩
    · split
      · split
        · exact ⟨_, rfl⟩
        · exact typed_eq_reference _ _
      · exact ⟨_, rfl⟩

section
variable [KeyOrder] {ctx : WordContext} {i j : Index}
  (h : SymbolTable.Shows ctx.line.file ctx.line.number i.symbols j.symbols)
include h

private theorem valLine_eq : valLine ctx i = valLine ctx j := by
  unfold valLine
  rcases h.parent?_cases anyCategory with ⟨hn, hn'⟩ | ⟨s, s', hs, hs', -, hx⟩
  · rw [hn, hn']
  · rw [hs, hs']
    simp only [hx]

private theorem columnName_eq (name : String) : columnName ctx i name = columnName ctx j name := by
  unfold columnName
  rcases h.parent?_cases anyCategory with ⟨hn, hn'⟩ | ⟨s, s', hs, hs', -, hx⟩
  · rw [hn, hn']
  · rw [hs, hs']
    simp only [hx]

private theorem paramLine_cases : paramLine ctx i = paramLine ctx j ∨
    paramLine ctx i = unknown ∧ ∃ c, paramLine ctx j = .reference c := by
  suffices hcases : paramLine ctx i = paramLine ctx j ∨ paramLine ctx i = unknown from
    hcases.imp_right fun hu => ⟨hu, paramLine_reference ctx j⟩
  unfold paramLine
  split
  · exact .inl rfl
  · split
    · cases ctx.line.words[1]? with
      | none => exact .inl rfl
      | some word =>
        simp only [Option.bind_some]
        rcases h.values word.value .param (.inl rfl) with hx | ⟨s, s', hs, hs', -, hx⟩
        · right
          split
          · rename_i param hp
            rw [hx param hp]
            rfl
          · rfl
        · left
          rw [hs, hs']
          simp only [hx]
    · exact .inl rfl

private theorem dataLine_cases : dataLine ctx i = dataLine ctx j ∨
    dataLine ctx i = unknown ∧ ∃ c, dataLine ctx j = .reference c := by
  suffices hcases : dataLine ctx i = dataLine ctx j ∨ dataLine ctx i = unknown from
    hcases.imp_right fun hu => ⟨hu, dataLine_reference ctx j⟩
  unfold dataLine
  split
  · exact .inl rfl
  · cases ctx.line.words[1]? with
    | none => exact .inl rfl
    | some word =>
      dsimp only
      rw [columnName_eq h]
      generalize columnName ctx j word.value = name
      rcases h.values name .dbColumn (.inr rfl) with hx | ⟨s, s', hs, hs', hn, hx⟩
      · right
        split
        · rename_i column hc
          rw [hx column hc]
          rfl
        · rfl
      · left
        rw [hs, hs']
        simp only [hx, hn]

/-- A config line gives a word the same role, or turns it from nothing known into a reference. -/
theorem config_cases : config ctx i = config ctx j ∨
    config ctx i = some unknown ∧ ∃ c, config ctx j = some (.reference c) := by
  unfold config
  split
  · exact .inl rfl
  · unfold configLine
    split
    · split
      · exact .inl rfl
      · split
        · rcases paramLine_cases h with he | ⟨hu, c, hc⟩
          · exact .inl (by rw [he])
          · exact .inr ⟨by rw [hu], c, by rw [hc]⟩
        · exact .inl (by rw [valLine_eq h])
        · rcases dataLine_cases h with he | ⟨hu, c, hc⟩
          · exact .inl (by rw [he])
          · exact .inr ⟨by rw [hu], c, by rw [hc]⟩
        · exact .inl rfl
    · exact .inl rfl

variable (ctx) in
private theorem annotations_eq (c : Category) : Annotations.of? c ctx i = Annotations.of? c ctx j := by
  have htable : Annotations.tableOf? ctx i = Annotations.tableOf? ctx j := by
    unfold Annotations.tableOf?
    dsimp only
    generalize (if ctx.dialect = "dbtable" then Category.dbTable else .dbRow) = required
    rcases h.parent?_cases (· = required) with ⟨hn, hn'⟩ | ⟨s, s', hs, hs', hname, hx⟩
    · rw [hn, hn']
    · rw [hs, hs']
      simp only [Option.bind_eq_bind, Option.bind_some, hname, hx]
  unfold Annotations.of? Annotations.ofWord?
  rw [htable]

end

theorem paramRole_eq (symbol : Option Symbol) (place : Nat) :
    paramRole symbol place = (symbol.bind Symbol.signature).bind fun s =>
      (s.params[place]?).map fun p => .reference p.category := by
  unfold paramRole
  cases symbol with
  | none => rfl
  | some s =>
    cases hs : s.signature with
    | none => simp [hs]
    | some signature => cases hp : signature.params[place]? <;> simp [hs, hp]

theorem returnRole_eq (ctx : WordContext) (index : Index) (place : Nat) :
    returnRole ctx index place = (index.returns.get? ctx.line.number ctx.line.file).bind fun key =>
      ((index.symbols.symbols[key]?).bind Symbol.signature).bind fun s =>
        (s.returns[place]?).map .reference := by
  unfold returnRole
  cases index.returns.get? ctx.line.number ctx.line.file with
  | none => rfl
  | some key =>
    cases hk : index.symbols.symbols[key]? with
    | none => simp [hk]
    | some s =>
      cases hs : s.signature with
      | none => simp [hk, hs]
      | some signature => cases hp : signature.returns[place]? <;> simp [hk, hs, hp]

private theorem paramRole_reference {symbol : Option Symbol} {place : Nat} {r : Role}
    (h : paramRole symbol place = some r) : ∃ c, r = .reference c := by
  rw [paramRole_eq] at h
  obtain ⟨s, -, h⟩ := Option.bind_eq_some_iff.1 h
  obtain ⟨p, -, rfl⟩ := Option.map_eq_some_iff.1 h
  exact ⟨_, rfl⟩

private theorem returnRole_reference {ctx : WordContext} {index : Index} {place : Nat} {r : Role}
    (h : returnRole ctx index place = some r) : ∃ c, r = .reference c := by
  rw [returnRole_eq] at h
  obtain ⟨key, -, h⟩ := Option.bind_eq_some_iff.1 h
  obtain ⟨s, -, h⟩ := Option.bind_eq_some_iff.1 h
  obtain ⟨p, -, rfl⟩ := Option.map_eq_some_iff.1 h
  exact ⟨_, rfl⟩

/-- An argument of a call is never declared. -/
theorem parameters_reference {ctx : WordContext} {index : Index} {r : Role}
    (h : parameters ctx index = some r) : ∃ c, r = .reference c := by
  unfold parameters at h
  split at h
  · unfold argument at h
    split at h
    · dsimp only at h
      split at h
      · exact returnRole_reference h
      · split at h
        · split at h
          · exact paramRole_reference h
          · exact paramRole_reference h
        · exact paramRole_reference h
    · cases h
  · cases h

/-- A command is declared on its header in the engine file, and referred to elsewhere. -/
theorem command_eq_some {ctx : WordContext} {index : Index} {r : Role}
    (h : command ctx index = some r) : r = .reference .command ∨ r = .declaration .command ∧
      (Path.parse ctx.line.file).name = engineFile ∧ ctx.word.index = 1 ∧
      LineShape.isTriggerLine ctx.line.text = true := by
  unfold command at h
  split at h
  · cases h
  · split at h
    · rename_i hheader
      cases h
      exact .inr ⟨rfl, hheader⟩
    · split at h <;> cases h
      exact .inl rfl

theorem map_reference {ctx : WordContext} {index : Index} {r : Role} (h : map ctx index = some r) :
    ∃ c, r = .reference c := by
  unfold map at h
  split at h
  · dsimp only at h
    split at h
    · cases h
      exact ⟨_, rfl⟩
    · split at h <;> cases h <;> exact ⟨_, rfl⟩
  · cases h

theorem switchCase_reference {ctx : WordContext} {index : Index} {r : Role}
    (h : switchCase ctx index = some r) : ∃ c, r = .reference c := by
  unfold switchCase at h
  split at h
  · split at h <;> cases h <;> exact ⟨_, rfl⟩
  · cases h

section
variable [KeyOrder] {ctx : WordContext} {i j : Index}
  (h : SymbolTable.Shows ctx.line.file ctx.line.number i.symbols j.symbols)
include h

/-- With more symbols declared an argument keeps its role, or turns from nothing into a reference. -/
private theorem paramRole_cases (name : String) (c : Category) (place : Nat) :
    paramRole (i.symbols.get? name c) place = none ∨
      paramRole (i.symbols.get? name c) place = paramRole (j.symbols.get? name c) place := by
  rw [paramRole_eq, paramRole_eq]
  rcases h.signature_get?_cases name c with hn | he
  · exact .inl (by rw [hn]; rfl)
  · exact .inr (by rw [he])

private theorem returnRole_cases (hs : Index.SameOn ctx.line.file ctx.line.number i j) (place : Nat) :
    returnRole ctx i place = none ∨ returnRole ctx i place = returnRole ctx j place := by
  rw [returnRole_eq, returnRole_eq, hs.returns]
  cases j.returns.get? ctx.line.number ctx.line.file with
  | none => exact .inl rfl
  | some key =>
    simp only [Option.bind_some]
    rcases h.signatures key with hn | he
    · exact .inl (by rw [hn]; rfl)
    · exact .inr (by rw [he])

private theorem parameters_cases (hs : Index.SameOn ctx.line.file ctx.line.number i j) :
    parameters ctx i = none ∨ parameters ctx i = parameters ctx j := by
  unfold parameters
  split
  · unfold argument
    split
    · rename_i callee place _
      dsimp only
      split
      · exact returnRole_cases h hs _
      · split
        · split
          · exact paramRole_cases h _ _ _
          · cases Word.at? ctx.line.words (callee.last + 2 : Nat) with
            | none => exact .inl rfl
            | some word => exact paramRole_cases h _ _ _
        · exact paramRole_cases h _ _ _
    · exact .inl rfl
  · exact .inl rfl

end

end Rules

namespace Rule

def command? (ctx : WordContext) (index : Index) : Option Role :=
  if (Rules.pack ctx).isSome ∨ (Rules.literal ctx).isSome then none else Rules.command ctx index

def front (ctx : WordContext) (index : Index) : Option Role :=
  (Rules.pack ctx).or <| (Rules.literal ctx).or <| (command? ctx index).or <|
    (Rules.localVar ctx).or <| (Rules.sigil ctx).or (Rules.trigger ctx)

theorem classify_eq [KeyOrder] (ctx : WordContext) (index : Index) :
    classify ctx index = (front ctx index).or ((Rules.config ctx index).or
      ((Rules.map ctx index).or ((Rules.switchCase ctx index).or (Rules.parameters ctx index)))) := by
  have hcons (rule : Rule) (rules : List Rule) :
      (rule :: rules).findSome? (fun rule => rule.ask ctx index) =
        (rule.ask ctx index).or (rules.findSome? fun rule => rule.ask ctx index) := by
    rw [List.findSome?_cons]
    cases rule.ask ctx index <;> rfl
  unfold classify all front command?
  simp only [hcons, List.findSome?_nil, Option.or_none, Option.or_assoc]
  cases Rules.pack ctx with
  | some r => rfl
  | none =>
    cases Rules.literal ctx with
    | some r => rfl
    | none => rfl

theorem command?_eq_some {ctx : WordContext} {index : Index} {r : Role}
    (h : command? ctx index = some r) :
    Rules.pack ctx = none ∧ Rules.literal ctx = none ∧ Rules.command ctx index = some r := by
  unfold command? at h
  split at h
  · cases h
  · rename_i hn
    rw [not_or, Option.not_isSome_iff_eq_none, Option.not_isSome_iff_eq_none] at hn
    exact ⟨hn.1, hn.2, h⟩

/-- An answer of the command rule is known from whether it declares. -/
theorem command?_eq_iff {ctx ctx' : WordContext} {i j : Index} :
    (command? ctx i).map Role.declares = (command? ctx' j).map Role.declares ↔
      command? ctx i = command? ctx' j := by
  have hcases {ctx : WordContext} {i : Index} {r : Role} (h : command? ctx i = some r) :
      r = .reference .command ∨ r = .declaration .command := by
    rcases Rules.command_eq_some (command?_eq_some h).2.2 with h | ⟨h, -⟩
    · exact .inl h
    · exact .inr h
  refine ⟨fun h => ?_, fun h => by rw [h]⟩
  cases hr : command? ctx i with
  | none =>
    rw [hr] at h
    exact (Option.map_eq_none_iff.1 h.symm).symm
  | some r =>
    rw [hr] at h
    obtain ⟨r', hr', hd⟩ := Option.map_eq_some_iff.1 h.symm
    rw [hr']
    rcases hcases hr with rfl | rfl <;> rcases hcases hr' with rfl | rfl
    · rfl
    · cases hd
    · cases hd
    · rfl

/-- A word that is left to the command rule, and that it has an answer for, is what the rule says. -/
theorem classify_of_command? [KeyOrder] {ctx : WordContext} {index : Index} {r : Role}
    (h : command? ctx index = some r) : classify ctx index = some r := by
  obtain ⟨hpack, hliteral, -⟩ := command?_eq_some h
  rw [classify_eq, front, hpack, hliteral, h]
  rfl

section
variable [KeyOrder] {ctx : WordContext} {i j : Index}
  (h : SymbolTable.Shows ctx.line.file ctx.line.number i.symbols j.symbols)
  (hc : command? ctx i = command? ctx j)
include h hc

variable (ctx) in
/-- What a word declares with more known it declares already. -/
theorem classify_declares {r : Role} (hr : classify ctx j = some r) (hd : r.declares = true) :
    classify ctx i = some r := by
  have href (c : Category) (he : r = .reference c) : False := by
    rw [he] at hd
    cases hd
  rw [classify_eq] at hr ⊢
  have hfront : front ctx i = front ctx j := by rw [front, front, hc]
  rw [hfront]
  cases hf : front ctx j with
  | some r' => rwa [hf] at hr
  | none =>
    rw [hf, Option.none_or] at hr
    rw [Option.none_or]
    cases hcj : Rules.config ctx j with
    | some r' =>
      rcases Rules.config_cases h with he | ⟨-, c, he⟩
      · rw [hcj] at hr he
        rw [he]
        exact hr
      · rw [he] at hr
        exact (href c (Option.some.inj hr).symm).elim
    | none =>
      rw [hcj, Option.none_or] at hr
      rcases Option.or_eq_some_iff.1 hr with hm | ⟨-, hr⟩
      · obtain ⟨c, he⟩ := Rules.map_reference hm
        exact (href c he).elim
      · rcases Option.or_eq_some_iff.1 hr with hs | ⟨-, hp⟩
        · obtain ⟨c, he⟩ := Rules.switchCase_reference hs
          exact (href c he).elim
        · obtain ⟨c, he⟩ := Rules.parameters_reference hp
          exact (href c he).elim

variable (ctx) in
/-- With more known a word keeps its role, or turns from nothing known into a reference. -/
theorem classify_cases (hs : Index.SameOn ctx.line.file ctx.line.number i j) :
    classify ctx i = classify ctx j ∨
      (∀ r, classify ctx i = some r → r = Rules.unknown) ∧
        ∀ r, classify ctx j = some r → r.declares = false := by
  have hfront : front ctx i = front ctx j := by rw [front, front, hc]
  have hmap : Rules.map ctx i = Rules.map ctx j := by
    unfold Rules.map
    rw [hs.sections]
  have hcase : Rules.switchCase ctx i = Rules.switchCase ctx j := by
    unfold Rules.switchCase
    rw [hs.switches]
  rw [classify_eq, classify_eq, hfront, hmap, hcase]
  cases front ctx j with
  | some r => exact .inl rfl
  | none =>
    simp only [Option.none_or]
    rcases Rules.config_cases h with he | ⟨hu, c, hcj⟩
    · rw [he]
      cases Rules.config ctx j with
      | some r => exact .inl rfl
      | none =>
        cases Rules.map ctx j with
        | some r => exact .inl rfl
        | none =>
          cases Rules.switchCase ctx j with
          | some r => exact .inl rfl
          | none =>
            simp only [Option.none_or]
            rcases Rules.parameters_cases h hs with hn | he
            · refine .inr ⟨by simp [hn], fun r hr => ?_⟩
              obtain ⟨c, rfl⟩ := Rules.parameters_reference hr
              rfl
            · exact .inl he
    · rw [hu, hcj]
      refine .inr ⟨fun r hr => (Option.some.inj hr).symm, fun r hr => ?_⟩
      cases hr
      rfl

end

end Rule

namespace Index

private theorem get?_note (b : Breakpoints) (l : FileLine) (value : Option String) :
    (b.note l value).get? l.number l.file = b.get? l.number l.file := by
  cases hf : fileKey? l.file with
  | none => simp [Breakpoints.get?, hf]
  | some f =>
    refine Breakpoints.get?_congr hf fun m hm => ?_
    rw [Breakpoints.valueAt_note, if_neg]
    rintro ⟨-, he⟩
    omega

/-- Noting a line changes nothing that holds on the line itself. -/
theorem sameOn_noteLine (i : Index) (l : FileLine) :
    SameOn l.file l.number (i.noteLine l.file l.number l.text) i where
  switches := by rw [switches_noteLine, get?_note]
  returns := by rw [returns_noteLine]
  sections := by rw [sections_noteLine, get?_note]

theorem ofContext?_eq_some [KeyOrder] {ctx : WordContext} {i : Index} {m : Match} :
    Match.ofContext? ctx i = some m ↔ ctx.word.value ≠ "null" ∧ ∃ role annotations,
      Rule.classify ctx i = some role ∧ Annotations.of? role.category ctx i = some annotations ∧
        m = ⟨role, annotations, ctx⟩ := by
  unfold Match.ofContext?
  split
  · rename_i hn
    simp [hn]
  · rename_i hn
    simp only [hn, ne_eq, not_false_eq_true, true_and, Option.bind_eq_bind, Option.bind_eq_some_iff]
    constructor
    · rintro ⟨role, hr, annotations, ha, hm⟩
      exact ⟨role, annotations, hr, ha, (Option.some.inj hm).symm⟩
    · rintro ⟨role, annotations, hr, ha, rfl⟩
      exact ⟨role, hr, annotations, ha, rfl⟩

theorem entryOf?_eq_some [KeyOrder] {i : Index} {l : FileLine} {w : Word} {e : Entry} :
    i.entryOf? l w = some e ↔ w.value ≠ "null" ∧ e.place = l ∧ e.found.context = l.context w ∧
      Rule.classify (l.context w) (i.noteLine l.file l.number l.text) = some e.found.role ∧
      Annotations.of? e.found.role.category (l.context w) (i.noteLine l.file l.number l.text) =
        some e.found.annotations := by
  unfold entryOf?
  rw [Option.bind_eq_some_iff]
  constructor
  · rintro ⟨m, hm, he⟩
    obtain ⟨hn, role, annotations, hr, ha, rfl⟩ := ofContext?_eq_some.1 hm
    unfold Entry.of? at he
    split at he
    · cases he
      exact ⟨hn, rfl, rfl, hr, ha⟩
    · cases he
  · rintro ⟨hn, rfl, hctx, hr, ha⟩
    refine ⟨e.found, ofContext?_eq_some.2 ⟨hn, _, _, hr, ha, ?_⟩, ?_⟩
    · rw [← hctx]
    · exact dif_pos ⟨e.named, e.cached⟩

private theorem command?_noteLine (ctx : WordContext) (i : Index) (l : FileLine) :
    Rule.command? ctx (i.noteLine l.file l.number l.text) = Rule.command? ctx i := by
  unfold Rule.command? Rules.command
  rw [i.symbols_noteLine]

theorem key?_of_category_command [KeyOrder] {i : Index} {l : FileLine} {w : Word} {e : Entry}
    (he : i.entryOf? l w = some e) (hc : e.found.role.category = .command) :
    e.key? = Symbol.key? w.value .command := by
  obtain ⟨-, -, -, -, ha⟩ := entryOf?_eq_some.1 he
  rw [hc] at ha
  have hword : w.value = e.found.word := congrArg Annotations.word (Option.some.inj ha)
  rw [Entry.key?, hc, hword]

theorem role_of_command? [KeyOrder] {i : Index} {l : FileLine} {w : Word} {e : Entry} {r : Role}
    (hc : Rule.command? (l.context w) i = some r) (he : i.entryOf? l w = some e) :
    e.found.role = r := by
  obtain ⟨-, -, -, hr, -⟩ := entryOf?_eq_some.1 he
  rw [Rule.classify_of_command? ((command?_noteLine _ i l).trans hc)] at hr
  exact (Option.some.inj hr).symm

section
variable [KeyOrder] {i j : Index} {l : FileLine} {w : Word}
  (h : SymbolTable.Shows l.file l.number i.symbols j.symbols)
  (hc : Rule.command? (l.context w) i = Rule.command? (l.context w) j)
include h hc

/-- What a word of a line declares with more known it declares already. -/
theorem entryOf?_declares {e : Entry} (he : j.entryOf? l w = some e) (hd : e.declares = true) :
    i.entryOf? l w = some e := by
  have hsymbols (i : Index) := i.symbols_noteLine l.file l.number l.text
  have hcommand : Rule.command? (l.context w) (i.noteLine l.file l.number l.text) =
      Rule.command? (l.context w) (j.noteLine l.file l.number l.text) :=
    (command?_noteLine _ i l).trans (hc.trans (command?_noteLine _ j l).symm)
  obtain ⟨hn, hl, hctx, hr, ha⟩ := entryOf?_eq_some.1 he
  rw [← hsymbols i, ← hsymbols j] at h
  have hr' := Rule.classify_declares (l.context w) h hcommand hr hd
  exact entryOf?_eq_some.2 ⟨hn, hl, hctx, hr', (Rules.annotations_eq (l.context w) h _).trans ha⟩

/-- With more known a word of a line keeps its entry, or it had none and now makes a reference. -/
theorem entryOf?_cases (hs : SameOn l.file l.number i j) :
    i.entryOf? l w = j.entryOf? l w ∨
      i.entryOf? l w = none ∧ ∀ e, j.entryOf? l w = some e → e.declares = false := by
  have hsymbols (i : Index) := i.symbols_noteLine l.file l.number l.text
  have hcommand : Rule.command? (l.context w) (i.noteLine l.file l.number l.text) =
      Rule.command? (l.context w) (j.noteLine l.file l.number l.text) :=
    (command?_noteLine _ i l).trans (hc.trans (command?_noteLine _ j l).symm)
  have hs : SameOn l.file l.number (i.noteLine l.file l.number l.text)
      (j.noteLine l.file l.number l.text) := by
    have hin := i.sameOn_noteLine l
    have hjn := j.sameOn_noteLine l
    exact ⟨hin.switches.trans (hs.switches.trans hjn.switches.symm),
      hin.returns.trans (hs.returns.trans hjn.returns.symm),
      hin.sections.trans (hs.sections.trans hjn.sections.symm)⟩
  rw [← hsymbols i, ← hsymbols j] at h
  have ha (c : Category) := Rules.annotations_eq (l.context w) h c
  rcases Rule.classify_cases (l.context w) h hcommand hs with he | ⟨hu, hd⟩
  · left
    unfold entryOf? Match.ofContext?
    rw [he]
    split
    · rfl
    · cases Rule.classify (l.context w) (j.noteLine l.file l.number l.text) with
      | none => rfl
      | some role => simp only [Option.bind_eq_bind, Option.bind_some, ha]
  · refine .inr ⟨?_, fun e he => hd _ (entryOf?_eq_some.1 he).2.2.2.1⟩
    cases he : i.entryOf? l w with
    | none => rfl
    | some e =>
      have hrole := hu _ (entryOf?_eq_some.1 he).2.2.2.1
      exact absurd (by rw [hrole]; rfl) e.category_ne_unknown

end

/-- Two indices that show each other the same on a line find the same on it. -/
theorem found_eq_of_shows [KeyOrder] {i j : Index} {l : FileLine}
    (hij : SymbolTable.Shows l.file l.number i.symbols j.symbols)
    (hji : SymbolTable.Shows l.file l.number j.symbols i.symbols)
    (hc : ∀ ctx, Rule.command? ctx i = Rule.command? ctx j) (hs : SameOn l.file l.number i j) :
    i.found l = j.found l := by
  refine List.filterMap_congr fun w _ => ?_
  rcases entryOf?_cases hij (hc _) hs with h | ⟨h, -⟩
  · exact h
  · rcases entryOf?_cases hji (hc _).symm
      ⟨hs.switches.symm, hs.returns.symm, hs.sections.symm⟩ with h' | ⟨h', -⟩
    · exact h'.symm
    · rw [h, h']

end Index

end ScriptIndex
