import ScriptIndex.Yaml.Cursor

/-! The marks and texts of a settings file, in order. Indentation appears as marks of its own: one where a
list or a mapping starts, and one where it ends. That a text is a key is known only from the colon behind
it, so the mark for a key is put in front of it afterwards. -/
namespace ScriptIndex.Yaml

inductive Token where
  | listStart
  | mappingStart
  | blockEnd
  | openBracket
  | closeBracket
  | openBrace
  | closeBrace
  | dash
  | comma
  | key
  | colon
  | documentStart
  | documentEnd
  | scalar (text : String) (isPlain : Bool)
  /-- Nothing can be read from here on, since a character is written by its number and there is none such. -/
  | noSuchCharacter
  deriving DecidableEq, Repr

/-- Where a key may have started: the number of tokens before it, its position, and whether nothing but a
key can stand there. -/
structure KeyStart where
  tokens : Nat
  index : Nat
  line : Nat
  column : Nat
  isRequired : Bool
  deriving DecidableEq, Repr

/-- The tokens read so far, the last first, and what the next ones depend on: the column of the innermost
list or mapping and those around it, whether a key may start here, and for the brackets and braces that are
open, the innermost first, and for the text around them, where a key may have started. -/
structure Scan where
  cursor : Cursor
  tokens : List Token := []
  indent : Int := -1
  indents : List Int := []
  allowsKey : Bool := true
  starts : List (Option KeyStart) := [none]
  deriving Repr

namespace Scan

def inFlow (s : Scan) : Bool :=
  1 < s.starts.length

def push (s : Scan) (t : Token) : Scan :=
  { s with tokens := t :: s.tokens }

def mark (s : Scan) (t : Token) : Scan :=
  { s.push t with cursor := s.cursor.next }

def keyLimit : Nat := 1024

def giveUp : Option KeyStart → Except Failure (Option KeyStart)
  | some k => if k.isRequired then .error .malformed else .ok none
  | none => .ok none

def dropKey (s : Scan) : Except Failure Scan :=
  match s.starts with
  | start :: starts => do return { s with starts := (← giveUp start) :: starts }
  | [] => .ok s

def dropStaleKeys (s : Scan) : Except Failure Scan := do
  let isStale (k : KeyStart) : Bool :=
    k.line != s.cursor.line || keyLimit < s.cursor.index - k.index
  let starts ← s.starts.mapM fun start => if start.any isStale then giveUp start else .ok start
  return { s with starts := starts }

def noteKey (s : Scan) : Except Failure Scan := do
  if s.allowsKey then
    let s ← s.dropKey
    let c := s.cursor
    let start : KeyStart := ⟨s.tokens.length, c.index, c.line, c.column, !s.inFlow && s.indent == c.column⟩
    return { s with starts := some start :: s.starts.drop 1 }
  else return s

def unindent (column : Int) (indents : List Int) (s : Scan) : Scan :=
  match indents with
  | [] => { s with indents := [] }
  | outer :: indents =>
    if column < s.indent then unindent column indents { s.push .blockEnd with indent := outer }
    else { s with indents := outer :: indents }

def closeBlocks (s : Scan) (column : Int) : Scan :=
  if s.inFlow then s else s.unindent column s.indents

def openBlock (s : Scan) (column : Nat) (place : Nat) (t : Token) : Scan :=
  if s.indent < column then
    { s with
      tokens := s.tokens.insertIdx (s.tokens.length - place) t
      indents := s.indent :: s.indents
      indent := column }
  else s

/-- Passes over blanks, comments and line ends. Outside of brackets and braces a key may start on every
line. -/
def toNextToken (fuel : Nat) (s : Scan) : Scan :=
  match fuel with
  | 0 => s
  | fuel + 1 =>
    let c := s.cursor.skipWhile (· = ' ')
    let c := if c.rest.head? = some '#' then c.skipWhile fun char => !isBreak char else c
    if c.rest.head?.any isBreak then
      toNextToken fuel { s with cursor := c.next, allowsKey := s.allowsKey || !s.inFlow }
    else { s with cursor := c }

def entry (s : Scan) (around : Token) (t : Token) : Except Failure Scan :=
  if s.inFlow then do
    return { ← s.dropKey with allowsKey := t == Token.dash }.mark t
  else if s.allowsKey then do
    let s := s.openBlock s.cursor.column s.tokens.length around
    return { ← s.dropKey with allowsKey := true }.mark t
  else .error .malformed

def colon (s : Scan) : Except Failure Scan :=
  match s.starts with
  | some start :: starts =>
    let tokens := s.tokens.insertIdx (s.tokens.length - start.tokens) .key
    let s := { s with tokens := tokens, starts := none :: starts, allowsKey := false }
    let s := if s.inFlow then s else s.openBlock start.column start.tokens .mappingStart
    .ok (s.mark .colon)
  | _ =>
    if s.inFlow then do
      return { ← s.dropKey with allowsKey := false }.mark .colon
    else if s.allowsKey then do
      let s := s.openBlock s.cursor.column s.tokens.length .mappingStart
      return { ← s.dropKey with allowsKey := true }.mark .colon
    else .error .malformed

def division (s : Scan) (t : Token) : Except Failure Scan := do
  let s ← (s.closeBlocks (-1)).dropKey
  return { s.push t with cursor := s.cursor.skip 3, allowsKey := false }

def opening (s : Scan) (t : Token) : Except Failure Scan := do
  let s ← s.noteKey
  return { s with starts := none :: s.starts, allowsKey := true }.mark t

def closing (s : Scan) (t : Token) : Except Failure Scan := do
  let s ← s.dropKey
  if s.inFlow then return { s with starts := s.starts.drop 1, allowsKey := false }.mark t
  else .error .malformed

def quoted (s : Scan) (quote : Char) : Except Failure Scan := do
  let s ← s.noteKey
  let (text, c) ← quotedText quote (s.cursor.rest.length + 1) [] s.cursor.next
  return { s.push (.scalar (String.ofList text) false) with cursor := c, allowsKey := false }

def plain (s : Scan) : Except Failure Scan := do
  let s ← s.noteKey
  let read := plainText s.inFlow (s.indent + 1) s.cursor.rest.length [] [] false s.cursor
  return { s.push (.scalar (String.ofList read.text) true) with
           cursor := read.stop, allowsKey := read.passedBreak }

def indicators : List Char :=
  ['\t', '-', '?', ':', ',', '[', ']', '\x7b', '\x7d', '#', '&', '*', '!', '|', '>', '\'', '"', '%', '@',
    Char.ofNat 0x60]

/-- Whether a plain text may start with a character. A dash, and outside of brackets and braces also a
question mark and a colon, may do so before a character that is no gap. -/
def startsPlain (inFlow : Bool) (c : Char) (next : Option Char) : Bool :=
  !indicators.contains c || (!isGap next && (c = '-' || (!inFlow && (c = '?' || c = ':'))))

def token (s : Scan) (c : Char) (next : Option Char) : Except Failure Scan :=
  let isMark := isGap next || s.inFlow
  if s.cursor.column = 0 ∧ s.cursor.atMarker "---" then s.division .documentStart
  else if s.cursor.column = 0 ∧ s.cursor.atMarker "..." then s.division .documentEnd
  else match c with
    | '[' => s.opening .openBracket
    | '\x7b' => s.opening .openBrace
    | ']' => s.closing .closeBracket
    | '\x7d' => s.closing .closeBrace
    | ',' => do return { ← s.dropKey with allowsKey := true }.mark .comma
    | '\'' => s.quoted '\''
    | '"' => s.quoted '"'
    | _ =>
      if c = '-' ∧ isGap next then s.entry .listStart .dash
      else if c = '?' ∧ isMark then s.entry .mappingStart .key
      else if c = ':' ∧ isMark then s.colon
      else if startsPlain s.inFlow c next then s.plain
      else .error .malformed

/-- The tokens up to one that cannot be read. A text that may be a key is looked at together with what
follows it, so nothing from there on can be read either. -/
def cutOff (s : Scan) : List Token :=
  let place := (s.starts.filterMap fun start => start.map KeyStart.tokens).foldl min s.tokens.length
  s.tokens.reverse.take place ++ [.noSuchCharacter]

def run (fuel : Nat) (s : Scan) : Except Failure (List Token) :=
  match fuel with
  | 0 => .error .malformed
  | fuel + 1 => do
    let before ← s.dropStaleKeys
    let s ← (before.toNextToken (s.cursor.rest.length + 1)).dropStaleKeys
    let s := s.closeBlocks s.cursor.column
    match s.cursor.rest with
    | [] => return (← (s.closeBlocks (-1)).dropKey).tokens.reverse
    | c :: rest =>
      match s.token c rest.head? with
      | .ok s => s.run fuel
      | .error .noSuchValue => return before.cutOff
      | .error .malformed => .error .malformed

end Scan

def isAllowed (c : Char) : Bool :=
  let n := c.toNat
  n = 9 || n = 10 || n = 13 || (0x20 ≤ n && n ≤ 0x7e) || n = 0x85 || (0xa0 ≤ n && n ≤ 0xfffd)
    || 0x10000 ≤ n

def Token.ofText (text : List Char) : Except Failure (List Token) :=
  let start : Cursor := { rest := text }
  if text.all isAllowed then
    Scan.run (text.length + 2)
      { cursor := if text.head? = some byteOrderMark then start.next else start }
  else .error .malformed

end ScriptIndex.Yaml
