import ScriptIndex.Category
import ScriptIndex.Datum

namespace ScriptIndex

abbrev Attributes := List (String × Datum)

/-- What a word is: a symbol of some category, declared here or referred to, with the values that
the classification found on the way. -/
structure Role where
  category : Category
  declares : Bool
  extra : Attributes := []
  deriving Repr

namespace Role

def declaration (c : Category) : Role :=
  { category := c, declares := true }

def reference (c : Category) : Role :=
  { category := c, declares := false }

end Role

end ScriptIndex
