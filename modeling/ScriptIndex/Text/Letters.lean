import ScriptIndex.Text.UpperRanges

/-! Letter case. Capitals follow the full mapping, in which one letter may become several.
Small letters are only ever compared with ASCII keywords, so only they are mapped. -/
namespace ScriptIndex.Text

def capital (c : Char) : List Char :=
  if c.toNat < 128 then [c.toUpper]
  else match capitalTexts.find? fun entry => entry.1 == c.toNat with
    | some entry => entry.2.map Char.ofNat
    | none =>
      match capitalRuns.find? fun r =>
          r.first ≤ c.toNat && c.toNat ≤ r.last && (c.toNat - r.first) % r.step == 0 with
      | some r => [Char.ofNat (r.capital + (c.toNat - r.first))]
      | none => [c]

def upper (s : String) : String :=
  String.ofList (s.toList.flatMap capital)

/-- The small form of one character, as far as it reaches into ASCII: the Kelvin sign is a `k`, and
the dotted capital `I` leaves its dot behind as a mark of its own. -/
def small (c : Char) : List Char :=
  if c.toNat < 128 then [c.toLower]
  else if c.toNat == 0x212a then ['k']
  else if c.toNat == 0x130 then ['i', Char.ofNat 0x307]
  else [c]

def lower (s : String) : String :=
  String.ofList (s.toList.flatMap small)

end ScriptIndex.Text
