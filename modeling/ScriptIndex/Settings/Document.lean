import ScriptIndex.Datum
import ScriptIndex.Disk

namespace ScriptIndex

inductive SourceError where
  | disk (e : DiskError)
  | text (e : TextError)
  /-- Something in it has the form of a number, a moment or a character, and there is none such. -/
  | noSuchValue
  deriving DecidableEq, Repr

/-- What a settings file holds. One that is malformed, or that cannot be read, can be passed over. -/
inductive Document where
  | malformed
  | unreadable (e : DiskError)
  | broken (e : SourceError)
  | value (d : Datum)

end ScriptIndex
