import ScriptIndex.Proofs.LocalNames

/-! Two readings of a script header. The signature of a script is read from the whole line of its header,
and its parameters and results from the header alone. Both find the same, unless the header has fewer than
two groups in parentheses and the code behind it goes on with what looks like one more. -/
namespace ScriptIndex

namespace Parameter

def put (p : Parameter) : List Parameter → List Parameter
  | [] => [p]
  | q :: rest => if q.name = p.name then p :: rest else q :: put p rest

def table (ps : List Parameter) : List Parameter :=
  ps.foldl (fun t p => put p t) []

private theorem mem_names_put {p : Parameter} {t : List Parameter} {name : String} :
    name ∈ (put p t).map Parameter.name ↔ name = p.name ∨ name ∈ t.map Parameter.name := by
  induction t with
  | nil => simp [put]
  | cons q rest ih =>
    rw [put]
    split
    · rename_i hq
      simp only [List.map_cons, List.mem_cons, hq]
      tauto
    · simp only [List.map_cons, List.mem_cons, ih]
      tauto

private theorem mem_names_table (ps : List Parameter) {name : String} :
    name ∈ (table ps).map Parameter.name ↔ name ∈ ps.map Parameter.name := by
  have hfold (t : List Parameter) : name ∈ (ps.foldl (fun t p => put p t) t).map Parameter.name ↔
      name ∈ ps.map Parameter.name ∨ name ∈ t.map Parameter.name := by
    induction ps generalizing t with
    | nil => simp
    | cons p ps ih =>
      rw [List.foldl_cons, ih, mem_names_put, List.map_cons, List.mem_cons]
      tauto
  rw [table, hfold]
  simp

end Parameter

namespace Signature
open LineShape

def categories (group : Option (List Char)) : List Category :=
  (pieces group).map fun piece => Category.ofKeyword (String.ofList (Text.strip piece))

def paramsOn (text : Line) : List Parameter :=
  (pieces (parenthesized text).1).filterMap Parameter.parse?

def returnsOn (text : Line) : List Category :=
  categories (parenthesized (parenthesized text).2).1

private theorem parse?_eq {line : Line} (h : line ≠ []) :
    ∃ text, parse? line = some ⟨paramsOn line, returnsOn line, text⟩ :=
  ⟨_, if_neg h⟩

private theorem categories_eq_nil_iff {group : Option (List Char)} : categories group = [] ↔ group =
    none := by
  cases group with
  | none => simp [categories, pieces]
  | some text => simp [categories, pieces, List.splitOn_ne_nil]

private theorem parenthesized_cons {c : Char} (ho : c ≠ '(') (hc : c ≠ ')') (rest : List Char) :
    parenthesized (c :: rest) = parenthesized rest := by
  have hidx (d : Char) (hd : c ≠ d) : (c :: rest).idxOf? d = (rest.idxOf? d).map (· + 1) := by
    rw [List.idxOf?_cons]
    simp [hd]
  unfold parenthesized
  rw [hidx _ ho, hidx _ hc]
  cases rest.idxOf? ')' with
  | none => rfl
  | some closing =>
    cases rest.idxOf? '(' with
    | none => simp
    | some opening => simp

theorem parenthesized_append {front : List Char} (h : Unparenthesized front) (rest : List Char) :
    parenthesized (front ++ rest) = parenthesized rest := by
  induction front with
  | nil => rfl
  | cons c front ih =>
    obtain ⟨hc, hfront⟩ := List.forall_mem_cons.1 h
    rw [List.cons_append, parenthesized_cons hc.1 hc.2, ih hfront]

/-- The first group in parentheses, and what stands behind it. -/
theorem parenthesized_group {inner : List Char} (h : Unparenthesized inner) (rest : List Char) :
    parenthesized (group inner ++ rest) = (if inner = [] then none else some inner, rest) := by
  have htext : group inner ++ rest = '(' :: (inner ++ ')' :: rest) := by simp [group]
  have hclosing : (inner ++ ')' :: rest).idxOf? ')' = some inner.length := by
    induction inner with
    | nil => rfl
    | cons c inner ih =>
      obtain ⟨hc, hinner⟩ := List.forall_mem_cons.1 h
      have hne : (c == ')') = false := beq_eq_false_iff_ne.2 hc.2
      rw [List.cons_append, List.idxOf?_cons, hne, ih hinner (by simp [group])]
      rfl
  have hopening : ('(' :: (inner ++ ')' :: rest)).idxOf? '(' = some 0 := rfl
  unfold parenthesized
  rw [htext, hopening, List.idxOf?_cons, hclosing]
  cases inner with
  | nil => rfl
  | cons c inner => simp

private theorem paramsOn_append {front : List Char} (h : Unparenthesized front) (rest : List Char) :
    paramsOn (front ++ rest) = paramsOn rest := by
  rw [paramsOn, parenthesized_append h, paramsOn]

private theorem returnsOn_append {front : List Char} (h : Unparenthesized front) (rest : List Char) :
    returnsOn (front ++ rest) = returnsOn rest := by
  rw [returnsOn, parenthesized_append h, returnsOn]

private theorem paramsOn_group {inner : List Char} (h : Unparenthesized inner) (rest : List Char) :
    paramsOn (group inner ++ rest) = (pieces (if inner = [] then none else some inner)).filterMap
      Parameter.parse? := by
  rw [paramsOn, parenthesized_group h]

private theorem returnsOn_group {inner : List Char} (h : Unparenthesized inner) (rest : List Char) :
    returnsOn (group inner ++ rest) = categories (parenthesized rest).1 := by
  rw [returnsOn, parenthesized_group h]

/-- Each group in parentheses is one closing parenthesis. -/
private theorem count_header {brackets : List Char} {groups : List (List Char)} (hb : IsPlain brackets)
    (hg : ∀ g ∈ groups, IsPlain g) : (brackets ++ groups.flatMap group).count ')' = groups.length := by
  have hplain {text : List Char} (h : IsPlain text) : text.count ')' = 0 :=
    List.count_eq_zero.2 fun hm => (h _ hm).2.1 rfl
  rw [List.count_append, hplain hb, Nat.zero_add]
  induction groups with
  | nil => rfl
  | cons g groups ih =>
    obtain ⟨hfirst, hrest⟩ := List.forall_mem_cons.1 hg
    rw [List.flatMap_cons, List.count_append, ih hrest, group, List.count_cons, List.count_append,
      hplain hfirst, List.length_cons]
    simp [Nat.add_comm]

end Signature

namespace ScriptBlock
open Signature

def parametersOf (locals : List (String × Variable)) : List Parameter :=
  locals.filterMap fun entry =>
    if entry.2.isParameter then some ⟨entry.2.type, entry.1⟩ else none

def hasVariable (locals : List (String × Variable)) (name : String) : Bool :=
  (locals.lookup name).any fun v => !v.isParameter

def parameters (b : ScriptBlock) : List Parameter :=
  parametersOf b.locals

def redeclares (b : ScriptBlock) (name : String) : Bool :=
  hasVariable b.locals name

/-- Whether the table of a script agrees with a signature: it holds its parameters, up to those whose names
the code declares again, and the script has its results. -/
structure Agrees (b : ScriptBlock) (σ : Signature) : Prop where
  params : b.parameters = (Parameter.table σ.params).filter fun p => !b.redeclares p.name
  returns : b.returnCategories = σ.returns

private theorem mem_keys_insert {name other : String} {v : Variable} {locals : List (String × Variable)} :
    other ∈ (insert name v locals).map Prod.fst ↔ other = name ∨ other ∈ locals.map Prod.fst := by
  induction locals with
  | nil => simp [insert]
  | cons entry rest ih =>
    rw [insert]
    split
    · rename_i he
      simp only [List.map_cons, List.mem_cons, he]
      tauto
    · simp only [List.map_cons, List.mem_cons, ih]
      tauto

private theorem keys_insert_nodup {name : String} {v : Variable} {locals : List (String × Variable)}
    (h : (locals.map Prod.fst).Nodup) : ((insert name v locals).map Prod.fst).Nodup := by
  induction locals with
  | nil => simp [insert]
  | cons entry rest ih =>
    rw [List.map_cons, List.nodup_cons] at h
    rw [insert]
    split
    · rename_i he
      rw [List.map_cons, List.nodup_cons]
      exact ⟨he ▸ h.1, h.2⟩
    · rename_i he
      rw [List.map_cons, List.nodup_cons, mem_keys_insert, not_or]
      exact ⟨⟨he, h.1⟩, ih h.2⟩

private theorem lookup_of_mem {locals : List (String × Variable)} (h : (locals.map Prod.fst).Nodup)
    {entry : String × Variable} (he : entry ∈ locals) : locals.lookup entry.1 = some entry.2 := by
  obtain ⟨front, back, rfl⟩ := List.append_of_mem he
  rw [List.map_append, List.map_cons, List.nodup_middle, List.nodup_cons] at h
  refine List.lookup_eq_some_iff.2 ⟨front, back, rfl, fun other ho => ?_⟩
  have hne : entry.1 ≠ other.1 := fun heq =>
    h.1 (heq ▸ List.mem_append_left _ (List.mem_map_of_mem ho))
  simpa using hne

private theorem keys_mentioned (name : String) (location : Location) (locals : List (String × Variable)) :
    (apply locals (.mentioned name location)).map Prod.fst = locals.map Prod.fst := by
  rw [apply, List.map_map]
  refine List.map_congr_left fun entry _ => ?_
  rw [Function.comp_apply]
  split <;> rfl

private theorem keys_apply_nodup {locals : List (String × Variable)} (h : (locals.map Prod.fst).Nodup)
    (e : Event) : ((apply locals e).map Prod.fst).Nodup := by
  cases e with
  | declared name type isParameter location => exact keys_insert_nodup h
  | mentioned name location => rwa [keys_mentioned]

private theorem parametersOf_cons (entry : String × Variable) (rest : List (String × Variable)) :
    parametersOf (entry :: rest) =
      (if entry.2.isParameter then [⟨entry.2.type, entry.1⟩] else []) ++ parametersOf rest := by
  unfold parametersOf
  cases hp : entry.2.isParameter <;> simp [hp]

private theorem parametersOf_insert_parameter {name : String} {v : Variable}
    {locals : List (String × Variable)} (hv : v.isParameter = true)
    (h : ∀ entry ∈ locals, entry.2.isParameter = true) :
    parametersOf (insert name v locals) = Parameter.put ⟨v.type, name⟩ (parametersOf locals) := by
  induction locals with
  | nil => simp [insert, parametersOf, hv, Parameter.put]
  | cons entry rest ih =>
    obtain ⟨hentry, hrest⟩ := List.forall_mem_cons.1 h
    rw [insert, parametersOf_cons, if_pos hentry, List.singleton_append, Parameter.put]
    split
    · rw [parametersOf_cons, if_pos hv, List.singleton_append]
    · rw [parametersOf_cons, if_pos hentry, List.singleton_append, ih hrest]

structure OfHeader (locals : List (String × Variable)) : Prop where
  keys : (locals.map Prod.fst).Nodup
  parameters : ∀ entry ∈ locals, entry.2.isParameter = true

private theorem OfHeader.insert {v : Variable} {locals : List (String × Variable)} (h : OfHeader locals)
    (name : String) (hv : v.isParameter = true) : OfHeader (insert name v locals) := by
  refine ⟨keys_insert_nodup h.keys, ?_⟩
  obtain ⟨-, hall⟩ := h
  induction locals with
  | nil => simpa [ScriptBlock.insert] using hv
  | cons entry rest ih =>
    obtain ⟨hentry, hrest⟩ := List.forall_mem_cons.1 hall
    rw [ScriptBlock.insert]
    split
    · exact List.forall_mem_cons.2 ⟨hv, hrest⟩
    · exact List.forall_mem_cons.2 ⟨hentry, ih hrest⟩

private theorem foldl_parameterEvents (file : String) (line : Nat) (header : Line) (cursor : Nat)
    (texts : List (List Char)) {locals : List (String × Variable)} (h : OfHeader locals) :
    OfHeader ((parameterEvents file line header cursor texts).foldl apply locals) ∧
      parametersOf ((parameterEvents file line header cursor texts).foldl apply locals) =
        (texts.filterMap Parameter.parse?).foldl (fun t p => Parameter.put p t)
          (parametersOf locals) := by
  induction texts generalizing cursor locals with
  | nil => exact ⟨h, rfl⟩
  | cons text texts ih =>
    rw [parameterEvents]
    dsimp only
    cases hp : Parameter.parse? text with
    | none =>
      rw [List.filterMap_cons_none hp]
      exact ih _ h
    | some p =>
      obtain ⟨hheader, hparameters⟩ := ih (cursor + text.length + 1)
        (h.insert p.name (v := ⟨p.type, true, _, _⟩) rfl)
      rw [parametersOf_insert_parameter rfl h.parameters] at hparameters
      rw [List.filterMap_cons_some hp]
      exact ⟨hheader, hparameters⟩

private theorem group?_text (text : List Char) : (group? text).map Prod.snd = (parenthesized text).1 := by
  unfold group? parenthesized
  cases text.idxOf? ')' with
  | none => cases text.idxOf? '(' <;> rfl
  | some closing =>
    cases text.idxOf? '(' with
    | none => rfl
    | some opening =>
      simp only [Option.bind_eq_bind, Option.bind_some]
      split <;> rfl

/-- The table of a header holds the parameters that a signature finds in it. -/
theorem foldl_headerEvents (file : String) (line : Nat) (header : Line) :
    OfHeader ((headerEvents file line header).foldl apply []) ∧
      parametersOf ((headerEvents file line header).foldl apply []) =
        Parameter.table (paramsOn header) := by
  have hempty : OfHeader [] := ⟨List.nodup_nil, by simp⟩
  unfold headerEvents paramsOn
  rw [← group?_text]
  cases group? header with
  | none => exact ⟨hempty, rfl⟩
  | some found =>
    obtain ⟨cursor, text⟩ := found
    exact foldl_parameterEvents file line header cursor (List.splitOn ',' text) hempty

/-- The results of a header are those that a signature finds in it. -/
private theorem returnTypes_categories (header : Line) :
    (returnTypes header).map Category.ofKeyword = returnsOn header := by
  have hrest : ∀ closing, header.idxOf? ')' = some closing →
      (parenthesized header).2 = header.drop (closing + 1) := by
    intro closing hc
    unfold parenthesized
    rw [hc]
    dsimp only
    split
    · split <;> rfl
    · rfl
  unfold returnTypes returnsOn
  cases hc : header.idxOf? ')' with
  | none =>
    have hnone : parenthesized header = (none, []) := by
      unfold parenthesized
      rw [hc]
    rw [hnone]
    rfl
  | some closing =>
    rw [hrest closing hc, ← group?_text]
    dsimp only
    cases group? (header.drop (closing + 1)) with
    | none => rfl
    | some found => simp [categories, pieces]

def Event.OfCode : Event → Prop
  | .declared _ _ isParameter _ => isParameter = false
  | .mentioned _ _ => True

private theorem codeEvents_ofCode {file : String} {c : Code} {e : Event} (h : e ∈ codeEvents file c) :
    e.OfCode := by
  cases e with
  | declared name type isParameter location =>
    obtain ⟨u, w, -, -, -, -, hp, -⟩ := declared_mem_wordEvents.1 h
    exact hp
  | mentioned name location => trivial

private theorem parametersOf_insert_variable {name : String} {v : Variable}
    {locals : List (String × Variable)} (hv : v.isParameter = false)
    (h : (locals.map Prod.fst).Nodup) :
    parametersOf (insert name v locals) = (parametersOf locals).filter fun p => p.name ≠ name := by
  induction locals with
  | nil => simp [insert, parametersOf, hv]
  | cons entry rest ih =>
    rw [List.map_cons, List.nodup_cons] at h
    rw [insert]
    split
    · rename_i he
      have hrest : (parametersOf rest).filter (fun p => p.name ≠ name) = parametersOf rest := by
        refine List.filter_eq_self.2 fun p hp => ?_
        obtain ⟨other, ho, hsome⟩ := List.mem_filterMap.1 hp
        split at hsome
        · cases hsome
          have hne : other.1 ≠ name := fun hname =>
            h.1 (he ▸ hname ▸ List.mem_map_of_mem ho)
          simpa using hne
        · cases hsome
      rw [parametersOf_cons, parametersOf_cons, List.filter_append, hrest]
      cases entry.2.isParameter <;> simp [hv, he]
    · rename_i he
      rw [parametersOf_cons, parametersOf_cons, List.filter_append, ih h.2]
      cases entry.2.isParameter <;> simp [he]

private theorem parametersOf_mentioned (name : String) (location : Location)
    (locals : List (String × Variable)) :
    parametersOf (apply locals (.mentioned name location)) = parametersOf locals := by
  unfold apply parametersOf
  rw [List.filterMap_map]
  refine List.filterMap_congr fun entry _ => ?_
  rw [Function.comp_apply]
  split <;> rfl

/-- A name that is not that of a parameter stays so in code. -/
private theorem hasVariable_apply {locals : List (String × Variable)} {e : Event} (he : e.OfCode)
    {name : String} (h : hasVariable locals name = true) : hasVariable (apply locals e) name = true := by
  obtain ⟨v, hv, hp⟩ := (Option.any_eq_true _ _).1 h
  unfold hasVariable
  rw [lookup_apply, hv]
  cases e with
  | declared other type isParameter location =>
    have he : isParameter = false := he
    by_cases hn : other = name
    · simp [Event.on, hn, he]
    · simpa [Event.on, hn] using hp
  | mentioned other location => by_cases hn : other = name <;> simpa [Event.on, hn] using hp

private theorem hasVariable_foldl {events : List Event} (hcode : ∀ e ∈ events, e.OfCode)
    {locals : List (String × Variable)} {name : String} (h : hasVariable locals name = true) :
    hasVariable (events.foldl apply locals) name = true := by
  induction events generalizing locals with
  | nil => exact h
  | cons e events ih =>
    obtain ⟨he, hevents⟩ := List.forall_mem_cons.1 hcode
    exact ih hevents (hasVariable_apply he h)

/-- Code leaves the parameters in the table, up to those whose names it declares again. -/
private theorem parametersOf_foldl {events : List Event} (hcode : ∀ e ∈ events, e.OfCode)
    {locals : List (String × Variable)} (h : (locals.map Prod.fst).Nodup) :
    parametersOf (events.foldl apply locals) =
      (parametersOf locals).filter fun p => !hasVariable (events.foldl apply locals) p.name := by
  induction events generalizing locals with
  | nil =>
    refine (List.filter_eq_self.2 fun p hp => ?_).symm
    obtain ⟨entry, hentry, hsome⟩ := List.mem_filterMap.1 hp
    split at hsome
    · rename_i hparameter
      cases hsome
      have hlookup : locals.lookup entry.1 = some entry.2 := lookup_of_mem h hentry
      simp [hasVariable, hlookup, hparameter]
    · cases hsome
  | cons e events ih =>
    obtain ⟨he, hevents⟩ := List.forall_mem_cons.1 hcode
    rw [List.foldl_cons, ih hevents (keys_apply_nodup h e)]
    cases e with
    | declared name type isParameter location =>
      have he : isParameter = false := he
      have hname : hasVariable (events.foldl apply (apply locals
          (.declared name type isParameter location))) name = true := by
        refine hasVariable_foldl hevents ?_
        unfold hasVariable
        rw [lookup_apply]
        simp [Event.on, he]
      rw [apply, parametersOf_insert_variable he h, List.filter_filter]
      refine List.filter_congr fun p _ => ?_
      by_cases hp : p.name = name
      · rw [apply] at hname
        simp [hp, hname]
      · simp [hp]
    | mentioned name location => rw [parametersOf_mentioned]

variable {file : String} {lines : List Line} {number : Nat} {line : Line}

/-- A script has the parameters and the results that a signature finds in its header alone. -/
theorem parameters_ofSource (file : String) (lines : List Line) (number : Nat) (line : Line) :
    let b := ofSource file (sourceAt lines number line)
    let header := line.take (LineShape.headerLength line)
    b.parameters = (Parameter.table (paramsOn header)).filter (fun p => !b.redeclares p.name) ∧
      b.returnCategories = returnsOn header := by
  intro b header
  obtain ⟨hheader, hparameters⟩ := foldl_headerEvents file number header
  have hcode : ∀ e ∈ (sourceAt lines number line).code.flatMap (codeEvents file), e.OfCode := by
    intro e he
    obtain ⟨c, -, he⟩ := List.mem_flatMap.1 he
    exact codeEvents_ofCode he
  have hlocals : b.locals = ((sourceAt lines number line).code.flatMap (codeEvents file)).foldl apply
      ((headerEvents file number header).foldl apply []) := List.foldl_append
  refine ⟨?_, returnTypes_categories header⟩
  unfold parameters redeclares
  rw [hlocals, parametersOf_foldl hcode hheader.keys, hparameters]

/-- Whether what stands behind the header of a script adds nothing to the signature. A group in
parentheses that the header lacks is looked for behind it; a parameter found there makes no difference if
the code declares its name. -/
def AddsNothing (b : ScriptBlock) (header rest : Line) : Prop :=
  match header.count ')' with
  | 0 => (∀ p ∈ paramsOn rest, b.redeclares p.name = true) ∧
      (parenthesized (parenthesized rest).2).1 = none
  | 1 => (parenthesized rest).1 = none
  | _ => True

/-- A parameter that no table holds makes no difference where the code declares its name. -/
private theorem filter_table_eq_nil_iff {ps : List Parameter} {redeclared : String → Bool} :
    (Parameter.table ps).filter (fun p => !redeclared p.name) = [] ↔
      ∀ p ∈ ps, redeclared p.name = true := by
  have hnames (ps : List Parameter) : (∀ p ∈ ps, redeclared p.name = true) ↔
      ∀ name ∈ ps.map Parameter.name, redeclared name = true := by
    rw [List.forall_mem_map]
  rw [hnames ps, List.filter_eq_nil_iff]
  simp only [← Parameter.mem_names_table ps, ← hnames, Bool.not_eq_true', Bool.not_eq_false]

private theorem agrees_iff_addsNothing (htrigger : LineShape.isTriggerLine line = true) {σ : Signature}
    (hparams : σ.params = paramsOn line) (hreturns : σ.returns = returnsOn line) :
    let b := ofSource file (sourceAt lines number line)
    b.Agrees σ ↔ b.AddsNothing (line.take (LineShape.headerLength line))
      (line.drop (LineShape.headerLength line)) := by
  intro b
  obtain ⟨hp, hr⟩ := parameters_ofSource file lines number line
  obtain ⟨brackets, groups, hbrackets, hlength, hgroups, hheader⟩ := LineShape.exists_header htrigger
  have hline : line = (brackets ++ groups.flatMap LineShape.group) ++
      line.drop (LineShape.headerLength line) := by
    rw [← hheader, List.take_append_drop]
  rw [hheader] at hp hr ⊢
  generalize line.drop (LineShape.headerLength line) = rest at hline ⊢
  have hagrees : b.Agrees σ ↔
      (Parameter.table (paramsOn (brackets ++ groups.flatMap LineShape.group))).filter
          (fun p => !b.redeclares p.name) =
        (Parameter.table (paramsOn line)).filter (fun p => !b.redeclares p.name) ∧
      returnsOn (brackets ++ groups.flatMap LineShape.group) = returnsOn line := by
    rw [← hparams, ← hreturns, ← hp, ← hr]
    exact ⟨fun h => ⟨h.params, h.returns⟩, fun h => ⟨h.1, h.2⟩⟩
  rw [hagrees, AddsNothing, count_header hbrackets hgroups, hline]
  simp only [List.append_assoc, paramsOn_append hbrackets.unparenthesized,
    returnsOn_append hbrackets.unparenthesized]
  match groups, hlength, hgroups with
  | [], _, _ =>
    -- The signature is read behind the header from the start.
    exact and_congr (eq_comm.trans filter_table_eq_nil_iff) (eq_comm.trans categories_eq_nil_iff)
  | [g], _, hgroups =>
    have hg := (hgroups g (by simp)).unparenthesized
    simp only [List.flatMap_cons, List.flatMap_nil, List.append_assoc, paramsOn_group hg,
      returnsOn_group hg, true_and]
    exact eq_comm.trans categories_eq_nil_iff
  | [g, g'], _, hgroups =>
    have hg := (hgroups g (by simp)).unparenthesized
    have hg' := (hgroups g' (by simp)).unparenthesized
    simp only [List.flatMap_cons, List.flatMap_nil, List.append_assoc, paramsOn_group hg,
      returnsOn_group hg, parenthesized_group hg', and_self]
    exact Iff.rfl

/-- A declaration gets the signature on its line. -/
private theorem signatureOn_excerptAt (hline : lines[number]? = some line) :
    Symbol.signatureOn (Index.excerptAt lines number) = .ok (Signature.parse? line) := by
  obtain ⟨hlt, -⟩ := List.getElem?_eq_some_iff.1 hline
  have hstart : (Index.excerptAt lines number).start < (Index.excerptAt lines number).lines.length := by
    simp only [Index.excerptAt, List.length_drop]
    split <;> omega
  have hthere : (Index.excerptAt lines number).line? (Index.excerptAt lines number).start =
      some line := by
    cases number with
    | zero => simpa [Index.excerptAt, Excerpt.line?] using hline
    | succ n => simpa [Index.excerptAt, Excerpt.line?, List.getElem?_drop, Nat.add_comm] using hline
  unfold Symbol.signatureOn
  rw [if_pos hstart, hthere]

/-- On every line with a script header, the signature that a declaration there gets and the script that
starts there have the same parameters, up to those whose names the code declares again, and the same
results, unless the code behind the header adds a group in parentheses that the header lacks. -/
theorem header_agrees_iff (file : String) (hline : lines[number]? = some line)
    (htrigger : LineShape.isTriggerLine line = true) :
    ∃ b ∈ ofLines file lines, b.start = number ∧ ∃ σ, Signature.parse? line = some σ ∧
      Symbol.signatureOn (Index.excerptAt lines number) = .ok (some σ) ∧
      (b.Agrees σ ↔ b.AddsNothing (line.take (LineShape.headerLength line))
        (line.drop (LineShape.headerLength line))) := by
  have hne : line ≠ [] := by
    rintro rfl
    cases htrigger
  obtain ⟨text, hparse⟩ := Signature.parse?_eq hne
  exact ⟨_, mem_ofLines.2 ⟨number, line, hline, htrigger, rfl⟩, rfl, _, hparse,
    (signatureOn_excerptAt hline).trans (congrArg Except.ok hparse),
    agrees_iff_addsNothing htrigger rfl rfl⟩

/-- A script with a parameter and a result, and a call behind its header. -/
theorem call_behind_results_agrees :
    let line := "[proc,a](int $x)(int) ~b(int $c)".toList
    [line][0]? = some line ∧ LineShape.isTriggerLine line = true ∧
      ∃ b ∈ ofLines "/ws/a.rs2" [line], b.start = 0 ∧ ∃ σ, Signature.parse? line = some σ ∧
        Symbol.signatureOn (Index.excerptAt [line] 0) = .ok (some σ) ∧ b.Agrees σ := by
  intro line
  have hline : [line][0]? = some line := rfl
  have htrigger : LineShape.isTriggerLine line = true := by decide +kernel
  obtain ⟨b, hb, hstart, σ, hparse, hsignature, hagrees⟩ :=
    header_agrees_iff "/ws/a.rs2" hline htrigger
  refine ⟨hline, htrigger, b, hb, hstart, σ, hparse, hsignature, hagrees.2 ?_⟩
  have hcount : (line.take (LineShape.headerLength line)).count ')' = 2 := by decide +kernel
  rw [AddsNothing, hcount]
  trivial

/-- The arguments of a call behind a header without parentheses are taken for parameters. -/
theorem call_behind_header_disagrees :
    let line := "[proc,a]~b(int $c)".toList
    ∃ b ∈ ofLines "/ws/a.rs2" [line], ∃ σ, Signature.parse? line = some σ ∧
      σ.params = [⟨"int", "$c"⟩] ∧ b.locals = [] ∧ ¬ b.Agrees σ := by
  intro line
  have hblocks : ofLines "/ws/a.rs2" [line] = [⟨0, "proc", "a", [], []⟩] := by decide +kernel
  refine ⟨_, by rw [hblocks]; exact List.mem_singleton_self _, _, rfl, by decide +kernel, rfl,
    fun hagrees => absurd hagrees.params ?_⟩
  decide +kernel

end ScriptBlock

end ScriptIndex
