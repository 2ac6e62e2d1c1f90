import ScriptIndex.Path
import Std.Data.ExtTreeMap

namespace ScriptIndex

/-- For each file, the values by the line from which they hold. -/
structure Breakpoints where
  files : Std.ExtTreeMap String (Std.ExtTreeMap Int String) := ∅

namespace Breakpoints

def put (b : Breakpoints) (line : Int) (value file : String) : Breakpoints :=
  match fileKey? file with
  | none => b
  | some file =>
    if value = "" then b
    else { files := b.files.alter file fun lines => some ((lines.getD ∅).insert line value) }

def floor? (lines : Std.ExtTreeMap Int String) (line : Int) : Option String :=
  (lines.filter fun start _ => start ≤ line).maxKey?.bind (lines[·]?)

def get? (b : Breakpoints) (line : Int) (file : String) : Option String := do
  let file ← fileKey? file
  let lines ← b.files[file]?
  floor? lines line

def clearFile (b : Breakpoints) (file : String) : Breakpoints :=
  match fileKey? file with
  | none => b
  | some file => { files := b.files.erase file }

end Breakpoints

end ScriptIndex
