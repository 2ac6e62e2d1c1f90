import ScriptIndex.Text.Classes

/-! Cutting texts into pieces: lines, fields, and what stands around a mark. A line is the list of
its characters, so that a column is a position in the list. -/
namespace ScriptIndex

abbrev Line := List Char

namespace Text

def cut? (mark : List Char) : List Char → Option (List Char × List Char)
  | [] => if mark.isEmpty then some ([], []) else none
  | c :: rest =>
    if mark.isPrefixOf (c :: rest) then some ([], (c :: rest).drop mark.length)
    else (cut? mark rest).map fun (before, after) => (c :: before, after)

def before (mark text : List Char) : List Char :=
  ((cut? mark text).map Prod.fst).getD text

def find? (mark text : List Char) : Option Nat :=
  (cut? mark text).map fun (before, _) => before.length

def hasPart (mark text : List Char) : Bool :=
  (cut? mark text).isSome

def strip (text : List Char) : List Char :=
  ((text.dropWhile isBlank).reverse.dropWhile isBlank).reverse

def replaceFrom (mark new : List Char) : Nat → List Char → List Char
  | _, [] => []
  | skip + 1, _ :: rest => replaceFrom mark new skip rest
  | 0, c :: rest =>
    if mark.isPrefixOf (c :: rest) then new ++ replaceFrom mark new (mark.length - 1) rest
    else c :: replaceFrom mark new 0 rest

def replace (mark new : String) (text : String) : String :=
  String.ofList (replaceFrom mark.toList new.toList 0 text.toList)

/-- The lines of a text: a line ends at a line feed, a carriage return, or both in this order. -/
def splitLines : List Char → List Line
  | [] => [[]]
  | '\r' :: '\n' :: rest => [] :: splitLines rest
  | c :: rest =>
    if c = '\r' ∨ c = '\n' then [] :: splitLines rest
    else match splitLines rest with
      | line :: lines => (c :: line) :: lines
      | [] => [[c]]

def uniformNewlines : List Char → List Char
  | [] => []
  | '\r' :: '\n' :: rest => '\n' :: uniformNewlines rest
  | c :: rest => (if c = '\r' then '\n' else c) :: uniformNewlines rest

def joinLines (lines : List Line) : List Char :=
  ['\n'].intercalate lines

def wholly (form : List Char → Bool) (text : List Char) : Bool :=
  form text || (text.getLast? == some '\n' && form text.dropLast)

def wordRuns : List Char → List (List Char)
  | [] => []
  | [c] => if isWordChar c then [[c]] else []
  | c :: d :: rest =>
    if isWordChar c then
      if isWordChar d then
        match wordRuns (d :: rest) with
        | run :: runs => (c :: run) :: runs
        | [] => [[c]]
      else [c] :: wordRuns (d :: rest)
    else wordRuns (d :: rest)

end Text

end ScriptIndex
