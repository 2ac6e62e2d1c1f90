import ScriptIndex.Indexing
import ScriptIndex.Proofs.TableConsistency

namespace ScriptIndex.Index

/-- A fold of steps that may fail keeps what each of its steps keeps. -/
theorem foldlM_keeps {ε σ α : Type} {f : σ → α → Except ε σ} {P : σ → Prop} {xs : List α} {s t : σ}
    (step : ∀ s x t, x ∈ xs → P s → f s x = .ok t → P t) (hs : P s) (h : xs.foldlM f s = .ok t) :
    P t := by
  induction xs generalizing s with
  | nil =>
    cases h
    exact hs
  | cons x xs ih =>
    rw [List.foldlM_cons] at h
    obtain ⟨u, hu, h⟩ := bind_eq_ok.1 h
    exact ih (fun s y t hy => step s y t (List.mem_cons_of_mem x hy))
      (step s x u List.mem_cons_self hs hu) h

/-- A classified word on a line of a file that indexing writes, as some state of the index shows it. -/
structure Written (file : String) (lines : List Line) (number : Nat) (line : Line) (m : Match) :
    Prop where
  onLine : lines[number]? = some line
  found : ∃ (_ : KeyOrder) (seen : Index), some m ∈ Match.onLine seen line number file
  cached : m.role.category.profile.cached = true

variable {file : String} {lines : List Line} {P : Index → Prop}

private theorem writeLine_keeps [KeyOrder] {i j : Index} {number : Nat} {line : Line}
    (hline : lines[number]? = some line)
    (note : ∀ i number line, P i → P (i.noteLine file number line))
    (declaration : ∀ i j number line m, Written file lines number line m → m.role.declares = true →
      P i → i.writeDeclaration file lines number line m = .ok j → P j)
    (reference : ∀ i number line m, Written file lines number line m → m.role.declares = false →
      P i → P (i.writeReference file number m))
    (hi : P i) (h : writeLine file lines i number line = .ok j) : P j := by
  unfold writeLine at h
  refine foldlM_keeps (fun s m t hm hs ht => ?_) (note i number line hi) h
  have hfound : some m ∈ Match.onLine (i.noteLine file number line) line number file := by
    obtain ⟨a, ha, rfl⟩ := List.mem_filterMap.1 hm
    simpa using ha
  unfold writeMatch at ht
  split at ht
  · rename_i hc
    have hw : Written file lines number line m := ⟨hline, ⟨_, _, hfound⟩, hc⟩
    split at ht
    · rename_i hd
      exact declaration s t number line m hw hd hs ht
    · rename_i hd
      cases ht
      exact reference s number line m hw (by simpa using hd) hs
  · cases ht
    exact hs

private theorem writeLines_keeps [KeyOrder] {i j : Index} {number : Nat} {rest : List Line}
    (hrest : lines.drop number = rest)
    (note : ∀ i number line, P i → P (i.noteLine file number line))
    (declaration : ∀ i j number line m, Written file lines number line m → m.role.declares = true →
      P i → i.writeDeclaration file lines number line m = .ok j → P j)
    (reference : ∀ i number line m, Written file lines number line m → m.role.declares = false →
      P i → P (i.writeReference file number m))
    (hi : P i) (h : writeLines file lines i number rest = .ok j) : P j := by
  induction rest generalizing i number with
  | nil =>
    cases h
    exact hi
  | cons line rest ih =>
    unfold writeLines at h
    obtain ⟨k, hk, h⟩ := bind_eq_ok.1 h
    have hline : lines[number]? = some line := by
      rw [← List.head?_drop, hrest]
      rfl
    have hdrop : lines.drop (number + 1) = rest := by
      rw [← List.drop_drop, hrest]
      rfl
    exact ih hdrop (writeLine_keeps hline note declaration reference hi hk) h

/-- What noting a line, writing a declaration and writing a reference keep, indexing a file keeps. -/
theorem parse_keeps [KeyOrder] {i j : Index} {text : String}
    (note : ∀ i number line, P i → P (i.noteLine file number line))
    (declaration : ∀ i j number line m, Written file (Text.splitLines text.toList) number line m →
      m.role.declares = true → P i →
      i.writeDeclaration file (Text.splitLines text.toList) number line m = .ok j → P j)
    (reference : ∀ i number line m, Written file (Text.splitLines text.toList) number line m →
      m.role.declares = false → P i → P (i.writeReference file number m))
    (hi : P i) (h : i.parse file text = .ok j) : P j :=
  writeLines_keeps List.drop_zero note declaration reference hi h

theorem writeReference_eq_refer (i : Index) (file : String) (number : Nat) (m : Match) :
    i.writeReference file number m = { i with
      symbols := i.symbols.refer m.word m.role file
        (Position.mk number (referenceColumn m.annotations)) m.annotations.packId } := by
  unfold writeReference
  dsimp only
  rw [SymbolTable.edit_refer]

/-- A declaration is written exactly if its symbol can be declared. -/
theorem writeDeclaration_eq_bind (i : Index) (file : String) (lines : List Line) (number : Nat)
    (line : Line) (m : Match) :
    i.writeDeclaration file lines number line m = (do
      let r ← i.symbols.declare m.word m.role (.at file number m.annotations.start 0)
        (excerptAt lines number)
      let i := { i with symbols := r.1 }
      let hasResults := r.2.any fun s => s.signature.any fun s => !s.returns.isEmpty
      if ScriptCache.hasEnding ".rs2" file && hasResults && LineShape.isTriggerLine line then
        let key := (Symbol.key? m.word m.role.category).getD ""
        .ok { i with returns := i.returns.put (number + 1) key file }
      else .ok i) := by
  unfold writeDeclaration
  dsimp only
  rw [SymbolTable.edit_declare]
  cases i.symbols.declare m.word m.role (.at file number m.annotations.start 0)
    (excerptAt lines number) <;> rfl

/-- Writing a declaration declares its symbol, and may let its key hold from the next line on. -/
theorem writeDeclaration_cases {i j : Index} {number : Nat} {line : Line} {m : Match}
    (h : i.writeDeclaration file lines number line m = .ok j) :
    ∃ r, i.symbols.declare m.word m.role (.at file number m.annotations.start 0)
        (excerptAt lines number) = .ok r ∧
      (j = { i with symbols := r.1 } ∨
        ∃ key, j = { i with symbols := r.1, returns := i.returns.put (number + 1) key file }) := by
  rw [writeDeclaration_eq_bind] at h
  obtain ⟨r, hr, h⟩ := bind_eq_ok.1 h
  dsimp only at h
  refine ⟨r, hr, ?_⟩
  split at h
  · cases h
    exact .inr ⟨_, rfl⟩
  · cases h
    exact .inl rfl

private theorem noteSwitch_cases (i : Index) (file : String) (number : Nat) (line : Line) :
    i.noteSwitch file number line = i ∨ ∃ value, i.noteSwitch file number line =
      { i with switches := i.switches.put (number + 1) value file } := by
  unfold noteSwitch
  split
  · exact .inl rfl
  · dsimp only
    split
    · exact .inl rfl
    · exact .inr ⟨_, rfl⟩

private theorem noteSection_cases (i : Index) (file : String) (number : Nat) (line : Line) :
    i.noteSection file number line = i ∨ ∃ value, i.noteSection file number line =
      { i with sections := i.sections.put (number + 1) value file } := by
  unfold noteSection
  split
  · exact .inl rfl
  · exact .inr ⟨_, rfl⟩

/-- Noting a line lets at most a switch and a section of the file hold from the next line on. -/
theorem noteLine_cases (i : Index) (file : String) (number : Nat) (line : Line) :
    ∃ switches sections,
      i.noteLine file number line = { i with switches := switches, sections := sections } ∧
      (switches = i.switches ∨ ∃ value, switches = i.switches.put (number + 1) value file) ∧
      (sections = i.sections ∨ ∃ value, sections = i.sections.put (number + 1) value file) := by
  have hswitch : ∃ switches, (if ScriptCache.hasEnding ".rs2" file then i.noteSwitch file number line
      else i) = { i with switches := switches } ∧
        (switches = i.switches ∨ ∃ value, switches = i.switches.put (number + 1) value file) := by
    split
    · rcases noteSwitch_cases i file number line with h | ⟨value, h⟩
      · exact ⟨_, h, .inl rfl⟩
      · exact ⟨_, h, .inr ⟨value, rfl⟩⟩
    · exact ⟨_, rfl, .inl rfl⟩
  obtain ⟨switches, he, hs⟩ := hswitch
  unfold noteLine
  dsimp only
  rw [he]
  split
  · rcases noteSection_cases { i with switches := switches } file number line with h | ⟨value, h⟩
    · exact ⟨switches, _, h, hs, .inl rfl⟩
    · exact ⟨switches, _, h, hs, .inr ⟨value, rfl⟩⟩
  · exact ⟨switches, _, rfl, hs, .inl rfl⟩

theorem symbols_noteLine (i : Index) (file : String) (number : Nat) (line : Line) :
    (i.noteLine file number line).symbols = i.symbols := by
  obtain ⟨switches, sections, h, -, -⟩ := noteLine_cases i file number line
  rw [h]

/-- Indexing a file keeps the table of symbols consistent. -/
theorem parse_consistent [KeyOrder] {i j : Index} {text : String} (hi : i.symbols.Consistent)
    (h : i.parse file text = .ok j) : j.symbols.Consistent := by
  refine parse_keeps (P := fun i => i.symbols.Consistent) ?_ ?_ ?_ hi h
  · intro i number line hi
    rw [symbols_noteLine]
    exact hi
  · intro i j number line m _ _ hi hj
    obtain ⟨r, hr, rfl | ⟨key, rfl⟩⟩ := writeDeclaration_cases hj
    · exact hi.declare hr
    · exact hi.declare hr
  · intro i number line m _ _ hi
    rw [writeReference_eq_refer]
    exact hi.refer _ _ _ _ _

/-- Indexing a file leaves the scripts of the shown file. -/
theorem parse_scripts [KeyOrder] {i j : Index} {text : String} (h : i.parse file text = .ok j) :
    j.scripts = i.scripts := by
  refine parse_keeps (P := fun k => k.scripts = i.scripts) ?_ ?_ ?_ rfl h
  · intro k number line hk
    obtain ⟨switches, sections, he, -, -⟩ := noteLine_cases k file number line
    rw [he]
    exact hk
  · intro k j number line m _ _ hk hj
    obtain ⟨r, -, rfl | ⟨key, rfl⟩⟩ := writeDeclaration_cases hj
    · exact hk
    · exact hk
  · exact fun k number line m _ _ hk => hk

end ScriptIndex.Index
