import ScriptIndex.Text.Pieces

namespace ScriptIndex.ConfigLine

def fieldsFrom (escaped : Bool) : List Char → List (List Char)
  | [] => [[]]
  | c :: rest =>
    if c = ',' ∧ !escaped then [] :: fieldsFrom false rest
    else match fieldsFrom (c == '\\') rest with
      | field :: fields => (c :: field) :: fields
      | [] => [[c]]

def fields (line : Line) : List (List Char) :=
  fieldsFrom false line

/-- The place of the field on a column, where the first of them starts at column `start` and the comma
behind a field belongs to it. -/
def placeFrom? (start : Int) (column : Int) : List (List Char) → Option Nat
  | [] => none
  | field :: rest =>
    let next := start + field.length + 1
    if column < next then some 0 else (placeFrom? next column rest).map (· + 1)

def place? (line : Line) (column : Int) : Option Nat :=
  placeFrom? 0 column (fields line)

end ScriptIndex.ConfigLine
