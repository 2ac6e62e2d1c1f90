import ScriptIndex.Json
import ScriptIndex.SymbolTable

namespace ScriptIndex

private def textOr (s : Option String) : Datum :=
  (s.map Datum.text).getD .null

def Position.toDatum (p : Position) : Datum :=
  .map [("line", .int p.line), ("character", .int p.column)]

def Location.toDatum (l : Location) : Datum :=
  .map [("file", .text l.file),
    ("range", .map [("start", l.span.start.toDatum), ("end", l.span.stop.toDatum)])]

def Signature.toDatum (s : Signature) : Datum :=
  .map [("params", .list (s.params.map fun p =>
      .map [("type", .text p.type), ("name", .text p.name), ("match_type_id", .text p.category.id)])),
    ("returns", .list (s.returns.map fun c => .text c.id)),
    ("params_text", .text s.paramsText), ("returns_text", .text s.returnsText)]

def References.toDatum (r : References) : Datum :=
  .map (r.toList.map fun (file, positions) =>
    let written := (positions.toList.map Position.encode).mergeSort fun a b => a ≤ b
    (file, .list (written.map .text)))

def Symbol.toDatum (s : Symbol) : Datum :=
  .map [("name", .text s.name), ("match_id", .text s.category.id), ("pack_id", textOr s.packId),
    ("declaration", (s.declaration.map Location.toDatum).getD .null),
    ("references", References.toDatum s.references), ("file_type", .text s.fileType),
    ("language", .text s.category.profile.language), ("info", textOr s.info),
    ("signature", (s.signature.map Signature.toDatum).getD .null), ("block", textOr s.block),
    ("value", textOr s.value), ("extra_data", if s.extra.isEmpty then .null else .record s.extra),
    ("hide_display", .bool s.hidden)]

def SymbolTable.toDatum (t : SymbolTable) : Datum :=
  .map (t.symbols.toList.map fun (key, s) => (key, s.toDatum))

def SymbolTable.snapshot (t : SymbolTable) : String :=
  Json.indented t.toDatum

end ScriptIndex
