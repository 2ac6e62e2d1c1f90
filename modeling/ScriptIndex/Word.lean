import ScriptIndex.Text.Pieces

/-! Words of a line. Sigils such as `$` and `~` separate words, so that a sigil is the character
before the word it marks. -/
namespace ScriptIndex

/-- A word of a line: its text, its first column, and its place among the words of the line. -/
structure Word where
  value : String
  start : Nat
  index : Nat
  deriving DecidableEq, Repr

namespace Word

def last (w : Word) : Nat :=
  w.start + w.value.length - 1

def covers (w : Word) (column : Int) : Bool :=
  w.start ≤ column && column ≤ w.last

def separators : List Char :=
  "`~!@#%^&*()-$=+[\x7b]\x7d\\|;:'\",.<>/?".toList

def isSeparator (c : Char) : Bool :=
  separators.contains c || Text.isBlank c

def isSeparatorButDollar (c : Char) : Bool :=
  c != '$' && isSeparator c

/-- The length of the word that starts at the front of a text, zero for none. A word is a name after
a dot, two names around a colon, or else a run of characters that do not separate. -/
def lengthAt (text : List Char) : Nat :=
  let plain := (text.takeWhile fun c => !isSeparator c).length
  match text with
  | '.' :: rest =>
    let name := (rest.takeWhile Text.isWordChar).length
    if name = 0 then plain else name + 1
  | text =>
    let first := (text.takeWhile Text.isWordChar).length
    match text.drop first with
    | ':' :: rest =>
      let second := (rest.takeWhile Text.isWordChar).length
      if first = 0 ∨ second = 0 then plain else first + 1 + second
    | _ => plain

/-- The length of the word at the front of a text when local variables are looked for: a `$` and a
name, or else a run of characters that do not separate, `$` among them. -/
def variableLengthAt (text : List Char) : Nat :=
  let plain := (text.takeWhile fun c => !isSeparatorButDollar c).length
  match text with
  | '$' :: rest =>
    let name := (rest.takeWhile Text.isWordChar).length
    if name = 0 then plain else name + 1
  | _ => plain

/-- The words from column `column` on, the first of them with place `index`. The next `skip`
characters belong to the word before. -/
def scan (lengthAt : List Char → Nat) (column index : Nat) : Nat → List Char → List Word
  | _, [] => []
  | skip + 1, _ :: rest => scan lengthAt (column + 1) index skip rest
  | 0, c :: rest =>
    match lengthAt (c :: rest) with
    | 0 => scan lengthAt (column + 1) index 0 rest
    | n + 1 =>
      ⟨String.ofList ((c :: rest).take (n + 1)), column, index⟩
        :: scan lengthAt (column + 1) (index + 1) n rest

def ofLine (line : Line) : List Word :=
  scan lengthAt 0 0 0 line

def ofLineWithVariables (line : Line) : List Word :=
  scan variableLengthAt 0 0 0 line

/-- The word on a column. Words stand in order, so the search ends at the first one beyond it. -/
def at? (words : List Word) (column : Int) : Option Word :=
  match words with
  | [] => none
  | w :: rest =>
    if w.covers column then some w
    else if column < w.start then none
    else at? rest column

end Word

end ScriptIndex
