import ScriptIndex.Breakpoints
import ScriptIndex.ScriptBlock
import ScriptIndex.SymbolTable

namespace ScriptIndex

/-- The state that classification reads and indexing writes. -/
structure Index where
  symbols : SymbolTable := {}
  /-- The category of the operand of the enclosing switch. -/
  switches : Breakpoints := {}
  /-- The key of the enclosing script, if it has results. -/
  returns : Breakpoints := {}
  /-- The enclosing section of a map. -/
  sections : Breakpoints := {}
  scripts : ScriptCache := {}

namespace Index

def clear (i : Index) : Index :=
  { scripts := i.scripts }

def clearFile (i : Index) (file : String) : Index :=
  { i with
    symbols := i.symbols.clearFile file
    switches := i.switches.clearFile file
    returns := i.returns.clearFile file
    sections := i.sections.clearFile file }

end Index

end ScriptIndex
