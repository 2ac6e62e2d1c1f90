import ScriptIndex.Word

/-! The call around a cursor. The line is read backwards from the cursor to the innermost open
parenthesis, and commas are counted on the way. Texts in quotes, interpolations `<...>` and closed
groups are passed over. -/
namespace ScriptIndex.CallSite

/-- Whether the cursor stands inside a text in quotes: whether an odd number of quotes follows. The
count ends at a `>` that closes an interpolation around the cursor. `previous` is the character before
the first of `text`; a quote in the first column of a line or behind a backslash does not count. -/
def quotesOdd (previous : Option Char) (depth : Nat) (odd : Bool) : List Char → Bool
  | [] => odd
  | c :: rest =>
    let odd := if c = '"' ∧ previous.any (· ≠ '\\') then !odd else odd
    if c = '>' then
      match depth with
      | 0 => odd
      | depth + 1 => quotesOdd (some c) depth odd rest
    else if c = '<' then quotesOdd (some c) (depth + 1) odd rest
    else quotesOdd (some c) depth odd rest

/-- How far the way back from the cursor has come: open interpolations and groups that are being passed
over, whether a text in quotes is, and the commas counted. -/
structure State where
  interpolations : Nat := 0
  inText : Bool := false
  groups : Nat := 0
  commas : Nat := 0
  deriving DecidableEq, Repr

/-- Reads backwards; the list holds the characters before the cursor, the nearest first. The answer is
the column of the open parenthesis and the number of commas behind it. -/
def back (s : State) : List Char → Option (Nat × Nat)
  | [] => none
  | c :: rest =>
    let escaped := rest.head? == some '\\'
    if c = '>' then back { s with interpolations := s.interpolations + 1 } rest
    else if 0 < s.interpolations then
      back (if c = '<' then { s with interpolations := s.interpolations - 1 } else s) rest
    else if s.inText then back (if c = '"' ∧ !escaped then { s with inText := false } else s) rest
    else if c = '"' ∧ !escaped then back { s with inText := true } rest
    else if c = ')' then back { s with groups := s.groups + 1 } rest
    else if 0 < s.groups then back (if c = '(' then { s with groups := s.groups - 1 } else s) rest
    else if c = ',' then back { s with commas := s.commas + 1 } rest
    else if c = '<' then none
    else if c = '(' then some (rest.length, s.commas)
    else back s rest

/-- The column of the parenthesis that is open at a cursor, and the number of commas since. -/
def opening? (text : Line) (cursor : Nat) : Option (Nat × Nat) :=
  let previous := if cursor = 0 then none else text[cursor - 1]?
  back { inText := quotesOdd previous 0 false (text.drop cursor) } (text.take cursor).reverse

def find? (text : Line) (cursor : Nat) (words : List Word) : Option (Option Word × Nat) :=
  (opening? text cursor).map fun (column, commas) => (Word.at? words ((column : Int) - 1), commas)

/-- A cursor that lies before the start of the line. -/
inductive CursorError where
  | outside
  deriving DecidableEq, Repr

/-- The call around a cursor that may be given from the end of the line, where there is none. -/
def findAt (text : Line) (cursor : Int) (words : List Word) :
    Except CursorError (Option (Option Word × Nat)) :=
  if 0 ≤ cursor then .ok (find? text cursor.toNat words)
  else if -cursor ≤ text.length then .ok none
  else .error .outside

end ScriptIndex.CallSite
