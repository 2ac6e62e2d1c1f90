import Mathlib.Data.List.Induction
import ScriptIndex.Proofs.LineValues

/-! Breakpoints after a history of edits. Of the values that were let hold from lines of a file since the
file was last forgotten, the one that holds on a line is that of the greatest start not past it; of several
with one start it is the one that came last. -/
namespace ScriptIndex

namespace Breakpoints

/-- A change of breakpoints. -/
inductive Edit where
  | put (line : Int) (value file : String)
  | clearFile (file : String)
  | clear

namespace Edit

def perform (b : Breakpoints) : Edit → Breakpoints
  | put line value file => b.put line value file
  | clearFile file => b.clearFile file
  | clear => {}

def Starts (f : String) (start : Int) (value : String) : Edit → Prop
  | put line v file => fileKey? file = some f ∧ line = start ∧ v = value ∧ v ≠ ""
  | clearFile _ | clear => False

def Forgets (f : String) : Edit → Prop
  | put .. => False
  | clearFile file => fileKey? file = some f
  | clear => True

/-- Whether a change leaves alone what starts to hold on a line: it neither forgets the file nor lets
another value hold from the line on. -/
def Spares (f : String) (start : Int) (e : Edit) : Prop :=
  ¬ e.Forgets f ∧ ∀ value, ¬ e.Starts f start value

variable {f : String} {start : Int} {value : String}

/-- After a change, the value that starts to hold on a line is the one that the change lets hold there, or
the one from before that the change leaves alone. -/
theorem valueAt_perform_iff (b : Breakpoints) (e : Edit) : (e.perform b).valueAt f start = some value ↔
    e.Starts f start value ∨ e.Spares f start ∧ b.valueAt f start = some value := by
  cases e with
  | put line v file =>
    simp only [perform, valueAt_put, Spares, Starts, Forgets]
    split
    · rename_i h
      obtain ⟨hf, hv, rfl⟩ := h
      simp [hf, hv]
    · rename_i h
      have hspared (w : String) : ¬ (fileKey? file = some f ∧ line = start ∧ v = w ∧ v ≠ "") :=
        fun hw => h ⟨hw.1, hw.2.2.2, hw.2.1⟩
      simp [hspared]
  | clearFile file =>
    simp only [perform, Spares, Starts, Forgets]
    cases hf : fileKey? file with
    | none => simp [Breakpoints.clearFile, hf]
    | some g => by_cases hg : g = f <;> simp [valueAt_clearFile b hf, hg]
  | clear => simp [perform, valueAt, Spares, Forgets, Starts]

end Edit

def run (edits : List Edit) : Breakpoints :=
  edits.foldl Edit.perform {}

def Since (edits : List Edit) (does leaves : Edit → Prop) : Prop :=
  ∃ before e after, edits = before ++ e :: after ∧ does e ∧ ∀ later ∈ after, leaves later

private theorem since_append_singleton {edits : List Edit} {e : Edit} {does leaves : Edit → Prop} :
    Since (edits ++ [e]) does leaves ↔ does e ∨ leaves e ∧ Since edits does leaves := by
  constructor
  · rintro ⟨before, d, after, hsplit, hd, hafter⟩
    rcases List.eq_nil_or_concat after with rfl | ⟨after, last, rfl⟩
    · obtain ⟨-, hlast⟩ := List.append_inj' hsplit rfl
      cases hlast
      exact .inl hd
    · rw [List.concat_eq_append, ← List.cons_append, ← List.append_assoc] at hsplit
      obtain ⟨rfl, hlast⟩ := List.append_inj' hsplit rfl
      cases hlast
      exact .inr ⟨hafter e (by simp), before, d, after, rfl, hd, fun x hx => hafter x (by simp [hx])⟩
  · rintro (hd | ⟨hleaves, before, d, after, rfl, hd, hafter⟩)
    · exact ⟨edits, e, [], rfl, hd, nofun⟩
    · refine ⟨before, d, after ++ [e], by simp, hd, fun x hx => ?_⟩
      rcases List.mem_append.1 hx with hx | hx
      · exact hafter x hx
      · exact List.mem_singleton.1 hx ▸ hleaves

/-- Whether a value was let hold from a line on since the file was last forgotten. -/
def Standing (edits : List Edit) (f : String) (start : Int) (value : String) : Prop :=
  Since edits (Edit.Starts f start value) fun e => ¬ e.Forgets f

/-- Whether a value is the last that was let hold from a line on since the file was last forgotten. -/
def LastStanding (edits : List Edit) (f : String) (start : Int) (value : String) : Prop :=
  Since edits (Edit.Starts f start value) (Edit.Spares f start)

variable {edits : List Edit} {f : String} {start : Int}

/-- What starts to hold on a line after a history is the last value that was let hold there. -/
theorem valueAt_run_iff {value : String} :
    (run edits).valueAt f start = some value ↔ LastStanding edits f start value := by
  induction edits using List.reverseRecOn with
  | nil => simp [run, valueAt, LastStanding, Since]
  | append_singleton edits e ih =>
    rw [LastStanding, since_append_singleton, ← LastStanding, ← ih, ← Edit.valueAt_perform_iff, run,
      List.foldl_append]
    rfl

/-- Of the values that were let hold from a line on, one is the last. -/
private theorem exists_lastStanding_iff :
    (∃ value, LastStanding edits f start value) ↔ ∃ value, Standing edits f start value := by
  induction edits using List.reverseRecOn with
  | nil => simp [LastStanding, Standing, Since]
  | append_singleton edits e ih =>
    unfold LastStanding Standing at ih ⊢
    simp only [since_append_singleton, exists_or, exists_and_left, ih, Edit.Spares]
    -- A change that lets another value hold from the line on puts that one in place of the last.
    by_cases hstarts : ∃ value, e.Starts f start value
    · simp [hstarts]
    · simp [not_exists.1 hstarts]

private theorem valueAt_run_eq_none_iff :
    (run edits).valueAt f start = none ↔ ∀ value, ¬ Standing edits f start value := by
  rw [← not_exists, ← exists_lastStanding_iff, Option.eq_none_iff_forall_ne_some, not_exists]
  exact forall_congr' fun value => not_congr valueAt_run_iff

/-- After every history of changes, the value that holds on a line of a file is the last that was let hold,
since the file was last forgotten, from the greatest line on that is not past it and from which one was; and
none holds if there is no such line. -/
theorem get?_run_latest (edits : List Edit) (file : String) (line : Int) :
    (∀ value, (run edits).get? line file = some value ↔
      ∃ f, fileKey? file = some f ∧ ∃ start ≤ line, LastStanding edits f start value ∧
        ∀ later, start < later → later ≤ line → ∀ v, ¬ Standing edits f later v) ∧
    ((run edits).get? line file = none ↔
      ∀ f, fileKey? file = some f → ∀ start ≤ line, ∀ v, ¬ Standing edits f start v) := by
  cases hf : fileKey? file with
  | none => simp [get?, hf]
  | some f =>
    simp only [Option.some.injEq, exists_eq_left', forall_eq']
    constructor
    · intro value
      rw [get?_eq_some_iff hf]
      simp only [valueAt_run_iff, valueAt_run_eq_none_iff]
    · rw [get?_eq_none_iff hf]
      simp only [valueAt_run_eq_none_iff]

end Breakpoints

end ScriptIndex
