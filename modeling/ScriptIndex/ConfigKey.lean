import ScriptIndex.Text.Pieces

/-! Keys of config lines `key=a,b,c`: the type of the value in each place, and what is said about the
key. -/
namespace ScriptIndex

structure Slot where
  keyword : String
  declares : Bool := false
  deriving DecidableEq, Repr

namespace ConfigKey

def fixed : List (String × List Slot) :=
  [("walkanim", [⟨"seq", false⟩, ⟨"seq", false⟩, ⟨"seq", false⟩, ⟨"seq", false⟩]),
    ("multivar", [⟨"var", false⟩]),
    ("multiloc", [⟨"int", false⟩, ⟨"loc", false⟩]),
    ("multinpc", [⟨"int", false⟩, ⟨"npc", false⟩]),
    ("basevar", [⟨"var", false⟩]),
    ("category", [⟨"category", false⟩]),
    ("huntmode", [⟨"hunt", false⟩]),
    ("table", [⟨"dbtable", false⟩]),
    ("column", [⟨"dbcolumn", true⟩])]

def hasNumbered (mark : List Char) : List Char → Bool
  | [] => false
  | c :: rest =>
    (mark.isPrefixOf (c :: rest) && ((c :: rest).drop mark.length).head?.any Text.isDigit)
      || hasNumbered mark rest

private def hasOneOf (marks : List String) (text : List Char) : Bool :=
  marks.any fun mark => Text.hasPart mark.toList text

def patterns : List ((List Char → Bool) × List Slot × List String) :=
  [(hasNumbered "stock".toList, [⟨"obj", false⟩, ⟨"int", false⟩, ⟨"int", false⟩], ["inv"]),
    (hasNumbered "count".toList, [⟨"obj", false⟩, ⟨"int", false⟩], ["obj"]),
    (hasNumbered "frame".toList, [⟨"frame", false⟩], ["seq"]),
    (hasOneOf ["model", "head", "womanwear", "manwear", "womanhead", "manhead", "activemodel"],
      [⟨"ob2", false⟩], ["npc", "loc", "obj", "spotanim", "if", "idk"]),
    (hasOneOf ["anim"], [⟨"seq", false⟩], ["loc", "npc", "if", "spotanim"]),
    (hasOneOf ["replaceheldleft", "replaceheldright"], [⟨"obj", false⟩], ["seq"])]

def slots? (key fileType : String) : Option (List Slot) :=
  match fixed.lookup key with
  | some slots => some slots
  | none =>
    (patterns.find? fun (form, _, fileTypes) => fileTypes.contains fileType && form key.toList).map
      fun (_, slots, _) => slots

private def numbered (stem : String) (least : Nat) (text : List Char) : Bool :=
  stem.toList.isPrefixOf text
    && least ≤ (text.drop stem.length).length && (text.drop stem.length).all Text.isDigit

private def oneDigit (stem : String) (text : List Char) : Bool :=
  numbered stem 1 text && text.length = stem.length + 1

private def recoloured (text : List Char) : Bool :=
  (text.getLast? == some 's' || text.getLast? == some 'd') && numbered "recol" 1 text.dropLast

private def isText (s : String) (text : List Char) : Bool :=
  text == s.toList

/-- What is said about a key, by its form and the file types it belongs to; `$TYPE` stands for the
file type. -/
def infoTable : List ((List Char → Bool) × Option (List String) × String) :=
  [(isText "name", none, "The display name of this $TYPE"),
    (isText "desc", none, "The examine text of this $TYPE"),
    (isText "category", none,
      "The category this $TYPE belongs to, scripts can target a whole category"),
    (numbered "model" 0, none, "The model used to render this $TYPE"),
    (recoloured, none,
      "Recolours the model of this $TYPE, s is the source colour and d the destination"),
    (oneDigit "op", some ["obj", "loc", "npc"], "An interaction option of this $TYPE"),
    (oneDigit "iop", some ["obj"], "An inventory option of this obj"),
    (isText "cost", some ["obj"], "The base value of this obj, used by shops and alchemy"),
    (isText "stackable", some ["obj"], "Whether this obj stacks in a single inventory slot"),
    (isText "members", some ["obj", "loc", "npc"],
      "Whether this $TYPE is only available on members worlds"),
    (numbered "count" 1, some ["obj"], "Stack size from which the countobj model is shown"),
    (fun t => isText "width" t || isText "length" t, some ["loc"], "The size of this loc in tiles"),
    (fun t => isText "blockwalk" t || isText "blockrange" t, some ["loc"],
      "Whether this loc blocks movement or projectiles"),
    (isText "size", some ["npc", "inv"], "The size of this $TYPE"),
    (isText "vislevel", some ["npc"], "The combat level shown for this npc"),
    (isText "huntmode", some ["npc"], "The hunt config this npc uses to find targets"),
    (fun t => t.all Text.isWordChar && Text.hasPart "anim".toList t,
      some ["loc", "npc", "if", "spotanim"], "An animation used by this $TYPE"),
    (isText "walkanim", some ["npc"], "The walk, turn around, turn left and turn right animations"),
    (numbered "stock" 1, some ["inv"], "A stock slot of this inv: obj, amount, restock rate"),
    (isText "scope", some ["inv"], "Whether this inv is temporary, permanent or shared"),
    (numbered "frame" 1, some ["seq"], "A frame of this animation"),
    (isText "inputtype", some ["enum"], "The type of the keys of this enum"),
    (isText "outputtype", some ["enum"], "The type of the values of this enum"),
    (isText "val", some ["enum"], "An entry of this enum: key, value"),
    (isText "default", some ["enum", "param"], "The value returned when no other value is set"),
    (isText "type", some ["param", "varp"], "The data type of this $TYPE"),
    (isText "param", none, "Sets a param on this $TYPE: param, value"),
    (isText "table", some ["dbrow"], "The dbtable this row belongs to"),
    (isText "column", some ["dbtable"], "A column of this table: name, field types..."),
    (isText "data", some ["dbrow"], "The value of a column of this row: column, fields..."),
    (isText "basevar", some ["varbit"], "The varp that stores the bits of this varbit"),
    (fun t => isText "startbit" t || isText "endbit" t, some ["varbit"],
      "The bit range of the base varp used by this varbit")]

def info? (key fileType : String) : Option String :=
  (infoTable.find? fun (form, fileTypes, _) =>
      fileTypes.all (·.contains fileType) && Text.wholly form key.toList).map
    fun (_, _, info) => info

end ConfigKey

end ScriptIndex
