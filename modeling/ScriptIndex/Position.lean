import ScriptIndex.Text.Pieces
import ScriptIndex.Text.Numeral

namespace ScriptIndex

/-- A place in a text. -/
structure Position where
  line : Int
  column : Int
  deriving DecidableEq, Repr

namespace Position

instance : Ord Position :=
  ⟨compareLex (compareOn line) (compareOn column)⟩

instance : Std.TransOrd Position :=
  inferInstanceAs (Std.TransCmp (compareLex (compareOn line) (compareOn column)))

instance : Std.LawfulEqOrd Position where
  eq_of_compare {p q} h := by
    have h : (compare p.line q.line).then (compare p.column q.column) = .eq := h
    obtain ⟨hl, hc⟩ := Ordering.then_eq_eq.1 h
    have hl : p.line = q.line := Std.LawfulEqOrd.eq_of_compare hl
    have hc : p.column = q.column := Std.LawfulEqOrd.eq_of_compare hc
    cases p; cases q; cases hl; cases hc
    rfl

def advance (p : Position) (columns : Int) : Position :=
  { p with column := p.column + columns }

def encode (p : Position) : String :=
  toString p.line ++ "|" ++ toString p.column

def decode? (s : String) : Option Position :=
  match List.splitOn '|' s.toList with
  | [line, column] => do return ⟨← Text.int? line, ← Text.int? column⟩
  | _ => none

end Position

/-- A stretch of text, from its first position to the one after its last. -/
structure Span where
  start : Position
  stop : Position
  deriving DecidableEq, Repr

def Position.span (p : Position) (length : Int) : Span :=
  ⟨p, p.advance length⟩

/-- A stretch of text in a file. -/
structure Location where
  file : String
  span : Span
  deriving DecidableEq, Repr

def Location.at (file : String) (line column : Int) (length : Int) : Location :=
  ⟨file, Position.span ⟨line, column⟩ length⟩

end ScriptIndex
