import ScriptIndex.LineShape
import ScriptIndex.Path
import ScriptIndex.Word

namespace ScriptIndex

/-- A line of a file, without its comment, and its words. -/
structure LineContext where
  words : List Word
  file : String
  text : Line
  number : Int
  fileName : FileName
  deriving DecidableEq, Repr

def LineContext.ofLine (line : Line) (number : Int) (file : String) : LineContext where
  words := Word.ofLine (LineShape.withoutComment line)
  file := file
  text := LineShape.withoutComment line
  number := number
  fileName := FileName.ofFile file

/-- A word of a line, with the cursor on it. -/
structure WordContext where
  line : LineContext
  word : Word
  cursor : Nat
  deriving DecidableEq, Repr

namespace WordContext

def dialect (ctx : WordContext) : String :=
  ctx.line.fileName.dialect

def previous? (ctx : WordContext) : Option Word :=
  if ctx.word.index = 0 then none else ctx.line.words[ctx.word.index - 1]?

def charBefore? (ctx : WordContext) : Option Char :=
  if ctx.word.start = 0 then none else ctx.line.text[ctx.word.start - 1]?

def charAfter? (ctx : WordContext) : Option Char :=
  ctx.line.text[ctx.word.last + 1]?

end WordContext

end ScriptIndex
