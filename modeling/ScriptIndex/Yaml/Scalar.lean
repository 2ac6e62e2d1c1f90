import ScriptIndex.Datum
import ScriptIndex.Text.Pieces

/-! Plain texts of settings files: which of them stand for nothing, truth values, numbers and moments. -/
namespace ScriptIndex.Yaml

inductive Meaning where
  | value (v : Datum.Key)
  /-- The key under which another mapping is merged into the one around it. -/
  | merge
  /-- The text `=`, which may be a key but no value. -/
  | equals
  /-- It has the form of a number or a moment, and there is none such. -/
  | noSuchValue

private def truths : List (String × Bool) :=
  [("yes", true), ("Yes", true), ("YES", true), ("no", false), ("No", false), ("NO", false),
    ("true", true), ("True", true), ("TRUE", true), ("false", false), ("False", false),
    ("FALSE", false), ("on", true), ("On", true), ("ON", true), ("off", false), ("Off", false),
    ("OFF", false)]

private def nulls : List String := ["", "~", "null", "Null", "NULL"]

private def digitValue (c : Char) : Nat :=
  if c.isDigit then c.toNat - '0'.toNat else c.toLower.toNat - 'a'.toNat + 10

private def inBase (base : Nat) (digits : List Char) : Nat :=
  (digits.filter (· ≠ '_')).foldl (fun n c => base * n + digitValue c) 0

private def isDigitOrMark (c : Char) : Bool := c.isDigit || c == '_'

private def isRun (p : Char → Bool) (text : List Char) : Bool :=
  !text.isEmpty && text.all fun c => p c || c == '_'

private def isSixtieth (text : List Char) : Bool :=
  (text.length == 1 || text.length == 2) && text.all Char.isDigit && inBase 10 text < 60

private def decimalNumber (text : List Char) : Option Nat :=
  if (text.filter (· ≠ '_')).length ≤ Text.digitLimit then some (inBase 10 text) else none

/-- A whole number without a sign: binary, hexadecimal, octal with a leading zero, decimal, or counted in
sixties with colons. A text of this form may still be no number, since it lacks digits or has too many. -/
def natural? (text : List Char) : Option (Option Nat) :=
  let based (base : Nat) (p : Char → Bool) (digits : List Char) : Option (Option Nat) :=
    if isRun p digits then some (if digits.all (· = '_') then none else some (inBase base digits))
    else none
  match text with
  | ['0'] => some (some 0)
  | '0' :: 'b' :: digits => based 2 (fun c => c = '0' || c = '1') digits
  | '0' :: 'x' :: digits => based 16 Text.isHexDigit digits
  | '0' :: digits =>
    if isRun (fun c => '0' ≤ c && c ≤ '7') digits then some (some (inBase 8 digits)) else none
  | '_' :: _ => none
  | text =>
    match List.splitOn ':' text with
    | first :: parts =>
      if isRun Char.isDigit first && parts.all isSixtieth then
        some ((decimalNumber first).map fun n => parts.foldl (fun n part => 60 * n + inBase 10 part) n)
      else none
    | [] => none

private def startsWithDigit (text : List Char) : Bool := text.head?.any Char.isDigit

/-- A number with a point: the digits before it, behind it, and an exponent that has a sign. Only a
number without a sign of its own may start with the point. -/
def decimal? (hasSign negative : Bool) (text : List Char) : Option Float := do
  let whole := text.takeWhile isDigitOrMark
  let rest ← match text.dropWhile isDigitOrMark with
    | '.' :: rest => some rest
    | _ => none
  let part := rest.takeWhile isDigitOrMark
  if !(startsWithDigit whole || (!hasSign && whole.isEmpty && startsWithDigit part)) then none
  let e ← match rest.dropWhile isDigitOrMark with
    | [] => some 0
    | mark :: sign :: digits =>
      if (mark = 'e' ∨ mark = 'E') ∧ (sign = '+' ∨ sign = '-') ∧ digits ≠ [] ∧ digits.all Char.isDigit then
        some (if sign = '-' then -(inBase 10 digits : Int) else inBase 10 digits)
      else none
    | _ => none
  return Decimal.toFloat negative (inBase 10 (whole ++ part)) (e - (part.filter (· ≠ '_')).length)

/-- A number with a point that is counted in sixties with colons. The parts are added up from the last
to the first. -/
def sixties? (negative : Bool) (text : List Char) : Option Float := do
  let whole := text.takeWhile (· ≠ '.')
  let part ← match text.dropWhile (· ≠ '.') with
    | '.' :: part => some part
    | _ => none
  match (List.splitOn ':' whole).reverse with
  | last :: middle =>
    let first ← middle.getLast?
    let middle := middle.dropLast
    if !(startsWithDigit first && first.all isDigitOrMark && (last :: middle).all isSixtieth
        && part.all isDigitOrMark) then none
    let digits := last ++ part
    let smallest := Decimal.toFloat false (inBase 10 digits) (-((part.filter (· ≠ '_')).length : Int))
    let sum := (middle ++ [first]).foldl (fun (sum, base) digits =>
      (sum + Decimal.toFloat false (inBase 10 digits) 0 * Decimal.toFloat false base 0, 60 * base))
      (smallest, 60)
    return if negative then -sum.1 else sum.1
  | [] => none

private def digitsAt? (least most : Nat) (text : List Char) : Option (Nat × List Char) :=
  let digits := (text.take most).takeWhile Char.isDigit
  if least ≤ digits.length then some (inBase 10 digits, text.drop digits.length) else none

private def behind? (mark : Char) : List Char → Option (List Char)
  | c :: rest => if c = mark then some rest else none
  | [] => none

private def isGapChar (c : Char) : Bool := c = ' ' || c = '\t'

private def millionths (digits : List Char) : Nat :=
  inBase 10 (digits.take 6 ++ List.replicate (6 - digits.length) '0')

private def zone? (text : List Char) : Option (Option Int) :=
  match text, text.dropWhile isGapChar with
  | [], _ => some none
  | _, ['Z'] => some (some 0)
  | _, sign :: rest => do
    let (hours, rest) ← if sign = '+' ∨ sign = '-' then digitsAt? 1 2 rest else none
    let minutes ← match rest with
      | [] => some 0
      | ':' :: rest => match digitsAt? 2 2 rest with
        | some (minutes, []) => some minutes
        | _ => none
      | _ => none
    let distance : Int := 60 * hours + minutes
    return some (if sign = '-' then -distance else distance)
  | _, [] => none

private def clock? (text : List Char) : Option Clock := do
  let rest ← match text with
    | c :: rest =>
      if c = 'T' ∨ c = 't' then some rest
      else if isGapChar c then some (rest.dropWhile isGapChar)
      else none
    | [] => none
  let (hour, rest) ← digitsAt? 1 2 rest
  let (minute, rest) ← digitsAt? 2 2 (← behind? ':' rest)
  let (second, rest) ← digitsAt? 2 2 (← behind? ':' rest)
  let (fraction, rest) := match rest with
    | '.' :: rest => (rest.takeWhile Char.isDigit, rest.dropWhile Char.isDigit)
    | rest => ([], rest)
  let zone ← zone? rest
  return ⟨hour, minute, second, millionths fraction, zone⟩

/-- A day, or a time of a day. A day that stands alone has two digits for its month and two for itself.
There need not be such a moment. -/
def moment? (text : List Char) : Option Moment := do
  let (year, rest) ← digitsAt? 4 4 text
  let (month, behindMonth) ← digitsAt? 1 2 (← behind? '-' rest)
  let (day, behindDay) ← digitsAt? 1 2 (← behind? '-' behindMonth)
  if behindDay.isEmpty then
    if text.length = 10 then some ⟨year, month, day, none⟩ else none
  else return ⟨year, month, day, some (← clock? behindDay)⟩

private def number? (text : List Char) : Option Meaning :=
  let (negative, size) := Text.unsign text
  let hasSign : Bool := size.length < text.length
  match natural? size with
  | some (some n) => some (.value (.int (if negative then -(n : Int) else n)))
  | some none => some .noSuchValue
  | none =>
    if [".inf", ".Inf", ".INF"].contains (String.ofList size) then
      some (.value (.float (if negative then -1.0 / 0.0 else 1.0 / 0.0)))
    else if [".nan", ".NaN", ".NAN"].contains (String.ofList text) then
      some (.value (.float (0.0 / 0.0)))
    else ((decimal? hasSign negative size).or (sixties? negative size)).map fun x => .value (.float x)

def meaning (text : String) : Meaning :=
  if nulls.contains text then .value .null
  else if text = "<<" then .merge
  else if text = "=" then .equals
  else match truths.lookup text with
    | some b => .value (.bool b)
    | none =>
      match number? text.toList with
      | some m => m
      | none =>
        match moment? text.toList with
        | some m => if m.isValid then .value (.moment m) else .noSuchValue
        | none => .value (.text text)

end ScriptIndex.Yaml
