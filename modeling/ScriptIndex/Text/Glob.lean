/-! Patterns on path texts: `*` stands for any text, separators included, `?` for one character, and
a bracketed class for one character in it, or not in it when it starts with `!`. -/
namespace ScriptIndex.Text.Glob

inductive Item where
  | any
  | one
  | exactly (c : Char)
  | oneOf (negated : Bool) (chars : List Char) (ranges : List (Char × Char))
  deriving Repr, DecidableEq

def Item.accepts (c : Char) : Item → Bool
  | .any => true
  | .one => true
  | .exactly d => c == d
  | .oneOf negated chars ranges =>
    (chars.contains c || ranges.any fun r => r.1 ≤ c && c ≤ r.2) != negated

def classText? (text : List Char) : Option (List Char) :=
  let lead := match text with
    | '!' :: ']' :: _ => 2
    | '!' :: _ => 1
    | ']' :: _ => 1
    | _ => 0
  let rest := text.drop lead
  if rest.contains ']' then some (text.take lead ++ rest.takeWhile (· ≠ ']')) else none

/-- Splits the text of a class at the hyphens that make a range. A hyphen among the next `least`
characters is taken as it is. -/
def rangeParts : Nat → List Char → List (List Char)
  | _, [] => [[]]
  | least, c :: rest =>
    if least = 0 ∧ c = '-' then [] :: rangeParts 2 rest
    else match rangeParts (least - 1) rest with
      | part :: parts => (c :: part) :: parts
      | [] => [[c]]

def closeParts : List (List Char) → List (List Char)
  | [part, []] => [part ++ ['-']]
  | part :: parts => part :: closeParts parts
  | [] => []

def dropEmptyRanges : List (List Char) → List (List Char)
  | [] => []
  | part :: parts =>
    match dropEmptyRanges parts with
    | [] => [part]
    | next :: others =>
      match part.getLast?, next.head? with
      | some low, some high =>
        if high < low then (part.dropLast ++ next.tail) :: others else part :: next :: others
      | _, _ => part :: next :: others

def ranges : List (List Char) → List (Char × Char)
  | part :: next :: parts =>
    (match part.getLast?, next.head? with
      | some low, some high => [(low, high)]
      | _, _ => [('-', '-')]) ++ ranges (next :: parts)
  | _ => []

def classItem (text : List Char) : Item :=
  let parts := dropEmptyRanges (closeParts (rangeParts (if text.head? = some '!' then 2 else 1) text))
  match parts with
  | ('!' :: part) :: rest => .oneOf true (part :: rest).flatten (ranges (part :: rest))
  | parts => .oneOf false parts.flatten (ranges parts)

/-- Reads a pattern; `skip` characters belong to a class that has been read. A bracket that is never
closed stands for itself. -/
def itemsFrom : Nat → List Char → List Item
  | _, [] => []
  | skip + 1, _ :: rest => itemsFrom skip rest
  | 0, c :: rest =>
    match c with
    | '*' => .any :: itemsFrom 0 rest
    | '?' => .one :: itemsFrom 0 rest
    | '[' =>
      match classText? rest with
      | some text => classItem text :: itemsFrom (text.length + 1) rest
      | none => .exactly '[' :: itemsFrom 0 rest
    | c => .exactly c :: itemsFrom 0 rest

def covers : List Item → List Char → Bool
  | [], text => text.isEmpty
  | .any :: items, text => (List.range (text.length + 1)).any fun n => covers items (text.drop n)
  | _ :: _, [] => false
  | item :: items, c :: text => item.accepts c && covers items text

end Glob

def fits (pattern text : String) : Bool :=
  Glob.covers (Glob.itemsFrom 0 pattern.toList) text.toList

end ScriptIndex.Text
