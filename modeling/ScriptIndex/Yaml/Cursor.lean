import ScriptIndex.Text.Classes

/-! A position in the text of a settings file, and the texts that are read from there: quoted ones, and
plain ones that go on until a mark. A text may go on over several lines; a single line end in it counts as
a blank, and a longer run of line ends as one line end less. -/
namespace ScriptIndex.Yaml

inductive Failure where
  | malformed
  /-- Something has the form of a number, a moment or a character, and there is none such. -/
  | noSuchValue
  deriving DecidableEq, Repr

structure Cursor where
  rest : List Char
  index : Nat := 0
  line : Nat := 0
  column : Nat := 0
  deriving DecidableEq, Repr

def isBreak (c : Char) : Bool :=
  c = '\n' || [0x85, 0x2028, 0x2029].contains c.toNat

def breakText (c : Char) : Char :=
  if c.toNat = 0x85 then '\n' else c

def isGap (c : Option Char) : Bool :=
  c.all fun c => c = ' ' || c = '\t' || isBreak c

def isFlowMark (c : Char) : Bool :=
  [',', '[', ']', '\x7b', '\x7d'].contains c

def byteOrderMark : Char := Char.ofNat 0xfeff

namespace Cursor

def next (c : Cursor) : Cursor :=
  match c.rest with
  | [] => c
  | char :: rest =>
    if isBreak char then ⟨rest, c.index + 1, c.line + 1, 0⟩
    else ⟨rest, c.index + 1, c.line, if char = byteOrderMark then c.column else c.column + 1⟩

def skip (c : Cursor) (n : Nat) : Cursor :=
  n.repeat next c

def skipWhile (p : Char → Bool) (c : Cursor) : Cursor :=
  c.skip (c.rest.takeWhile p).length

def atMarker (mark : String) (c : Cursor) : Bool :=
  mark.toList.isPrefixOf c.rest && isGap (c.rest.drop 3).head?

def atDivision (c : Cursor) : Bool :=
  c.atMarker "---" || c.atMarker "..."

end Cursor

/-- Passes over blank lines from the start of a line on, up to the first character of a text, and gives
the line ends. A mark between documents ends the search without success. -/
def blankLines (isBlank : Char → Bool) (fuel : Nat) (c : Cursor) : Option (List Char × Cursor) :=
  match fuel with
  | 0 => none
  | fuel + 1 =>
    if c.atDivision then none
    else
      let c := c.skipWhile isBlank
      match c.rest with
      | char :: _ =>
        if isBreak char then
          (blankLines isBlank fuel c.next).map fun (breaks, c) => (breakText char :: breaks, c)
        else some ([], c)
      | [] => some ([], c)

def folded (first : Char) (more : List Char) : List Char :=
  if first ≠ '\n' then first :: more
  else if more.isEmpty then [' ']
  else more

def foldedLines (isBlank : Char → Bool) (c : Cursor) : Option (List Char × Cursor) :=
  match c.rest with
  | [] => none
  | char :: rest =>
    (blankLines isBlank (rest.length + 1) c.next).map fun (breaks, c) =>
      (folded (breakText char) breaks, c)

private def isQuotedBlank (c : Char) : Bool := c = ' ' || c = '\t'

private def hexValue (digits : List Char) : Nat :=
  digits.foldl (fun n c => 16 * n +
    (if c.isDigit then c.toNat - '0'.toNat else c.toLower.toNat - 'a'.toNat + 10)) 0

def simpleEscape? (c : Char) : Option Char :=
  [('0', Char.ofNat 0), ('a', Char.ofNat 7), ('b', Char.ofNat 8), ('t', '\t'), ('\t', '\t'),
    ('n', '\n'), ('v', Char.ofNat 11), ('f', Char.ofNat 12), ('r', '\r'), ('e', Char.ofNat 27),
    (' ', ' '), ('"', '"'), ('\\', '\\'), ('/', '/'), ('N', Char.ofNat 0x85), ('_', Char.ofNat 0xa0),
    ('L', Char.ofNat 0x2028), ('P', Char.ofNat 0x2029)].lookup c

def escapeWidth? (c : Char) : Option Nat :=
  [('x', 2), ('u', 4), ('U', 8)].lookup c

def escape (c : Cursor) : Except Failure (List Char × Cursor) :=
  match c.rest with
  | [] => .error .malformed
  | char :: rest =>
    match simpleEscape? char, escapeWidth? char with
    | some value, _ => .ok ([value], c.next)
    | none, some width =>
      let digits := rest.take width
      if digits.length < width || !digits.all Text.isHexDigit then .error .malformed
      else if 0x110000 ≤ hexValue digits then .error .noSuchValue
      else .ok ([Char.ofNat (hexValue digits)], c.skip (width + 1))
    | none, none =>
      if isBreak char then
        match blankLines isQuotedBlank (rest.length + 1) c.next with
        | some (breaks, c) => .ok (breaks, c)
        | none => .error .malformed
      else .error .malformed

/-- Reads a text in quotes, behind the first of them. In single quotes two of them stand for one; between
double quotes a backslash starts an escape. Blanks around a line end do not count. -/
def quotedText (quote : Char) (fuel : Nat) (done : List Char) (c : Cursor) :
    Except Failure (List Char × Cursor) :=
  match fuel with
  | 0 => .error .malformed
  | fuel + 1 =>
    match c.rest with
    | [] => .error .malformed
    | char :: rest =>
      if char = quote then
        if quote = '\'' ∧ rest.head? = some '\'' then quotedText quote fuel ('\'' :: done) (c.skip 2)
        else .ok (done.reverse, c.next)
      else if char = '\\' ∧ quote = '"' then do
        let (value, c) ← escape c.next
        quotedText quote fuel (value.reverse ++ done) c
      else if isQuotedBlank char || isBreak char then
        let blanks := c.rest.takeWhile isQuotedBlank
        let behind := c.skipWhile isQuotedBlank
        if behind.rest.head?.any isBreak then
          match foldedLines isQuotedBlank behind with
          | some (breaks, c) => quotedText quote fuel (breaks.reverse ++ done) c
          | none => .error .malformed
        else quotedText quote fuel (blanks.reverse ++ done) behind
      else quotedText quote fuel (char :: done) c.next

/-- Whether a plain text ends before a character, given the next one: at a gap, at a colon before a gap,
and inside brackets or braces at a mark. -/
def endsPlain (inFlow : Bool) (c : Char) (next : Option Char) : Bool :=
  isGap (some c) || (c = ':' && (isGap next || (inFlow && next.any isFlowMark)))
    || (inFlow && (isFlowMark c || c = '?'))

def plainWord (inFlow : Bool) : List Char → List Char
  | [] => []
  | c :: rest => if endsPlain inFlow c rest.head? then [] else c :: plainWord inFlow rest

/-- A plain text: its characters, the position behind it, and whether a line end has been passed over in
search of more. -/
structure PlainText where
  text : List Char
  stop : Cursor
  passedBreak : Bool
  deriving Repr

/-- Reads a plain text. Outside of brackets and braces it goes on over lines that are indented by at least
`least` columns. -/
def plainText (inFlow : Bool) (least : Int) (fuel : Nat) (gap done : List Char) (passedBreak : Bool)
    (c : Cursor) : PlainText :=
  let word := if c.rest.head? = some '#' then [] else plainWord inFlow c.rest
  match fuel, word with
  | 0, _ | _, [] => ⟨done, c, passedBreak⟩
  | fuel + 1, word =>
    let done := done ++ gap ++ word
    let c := c.skip word.length
    let blanks := c.rest.takeWhile (· = ' ')
    let behind := c.skipWhile (· = ' ')
    if behind.rest.head?.any isBreak then
      match foldedLines (· = ' ') behind with
      | none => ⟨done, behind.next, true⟩
      | some (gap, c) =>
        if !inFlow && (c.column : Int) < least then ⟨done, c, true⟩
        else plainText inFlow least fuel gap done true c
    else if blanks.isEmpty then ⟨done, behind, false⟩
    else if !inFlow && (behind.column : Int) < least then ⟨done, behind, false⟩
    else plainText inFlow least fuel blanks done false behind

end ScriptIndex.Yaml
