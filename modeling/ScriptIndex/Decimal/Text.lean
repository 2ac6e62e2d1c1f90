import ScriptIndex.Decimal.Shortest
import ScriptIndex.Text.Numeral

/-! Doubles as text. Writing uses the fewest digits that read back, positionally for moderate
exponents; reading takes signs, underscores, digits of any script, and the names of the infinities. -/
namespace ScriptIndex.Decimal

structure Style where
  before : Int
  after : Int
  exponentWidth : Nat

def style : Style := ⟨-4, 16, 2⟩

private def zerosText (n : Nat) : List Char := List.replicate n '0'

def positional (digits : List Char) (point : Int) : List Char :=
  if point ≤ 0 then ['0', '.'] ++ zerosText (-point).toNat ++ digits
  else if point.toNat < digits.length then
    digits.take point.toNat ++ ['.'] ++ digits.drop point.toNat
  else digits ++ zerosText (point.toNat - digits.length) ++ ['.', '0']

def scientific (style : Style) (digits : List Char) (exponent : Int) : List Char :=
  let size := Nat.toDigits 10 exponent.natAbs
  digits.take 1 ++ (if digits.length ≤ 1 then [] else '.' :: digits.drop 1)
    ++ ['e', if exponent < 0 then '-' else '+']
    ++ zerosText (style.exponentWidth - size.length) ++ size

def text (style : Style) (d : Nat) (e : Int) : List Char :=
  let all := Nat.toDigits 10 d
  let digits := (all.reverse.dropWhile (· = '0')).reverse
  let point := (all.length : Int) + e
  if style.before < point ∧ point ≤ style.after then positional digits point
  else scientific style digits (point - 1)

def ofFloat (x : Float) : String :=
  match Double.ofFloat x with
  | .nan => "nan"
  | .infinite negative => if negative then "-inf" else "inf"
  | .finite negative m q =>
    let body := if m = 0 then ['0', '.', '0'] else text style (shortest m q).1 (shortest m q).2
    String.ofList (if negative then '-' :: body else body)

def toFloat (negative : Bool) (d : Nat) (e : Int) : Float :=
  let size : Int := (Nat.toDigits 10 d).length
  let x :=
    if d = 0 ∨ size + e < -400 then 0.0
    else if 400 < size + e then 1.0 / 0.0
    else if 0 ≤ e then Float.ofScientific (d * Nat.pow 10 e.toNat) false 0
    else Float.ofScientific d true (-e).toNat
  if negative then -x else x

def truncate (negative : Bool) (m : Nat) (q : Int) : Int :=
  let size : Nat := if 0 ≤ q then m <<< q.toNat else m >>> (-q).toNat
  if negative then -size else size

def joinDigits (before : Bool) : List Char → Option (List Char)
  | [] => some []
  | '_' :: c :: rest =>
    if before && Text.isDigit c then (c :: ·) <$> joinDigits true rest else none
  | '_' :: [] => none
  | c :: rest => (c :: ·) <$> joinDigits (Text.isDigit c) rest

private def values (cs : List Char) : List Nat := cs.filterMap Text.digit?

def exponent? : List Char → Option Int
  | [] => some 0
  | c :: rest =>
    if c = 'e' ∨ c = 'E' then
      let (negative, digits) := Text.unsign rest
      if digits.isEmpty || !digits.all Text.isDigit then none
      else
        let n := Text.ofDigits (values digits)
        some (if negative then -(n : Int) else n)
    else none

def float? (s : List Char) : Option Float := do
  let joined ← joinDigits false (Text.unpad s)
  let (negative, body) := Text.unsign joined
  let name := body.map Char.toLower
  if name = "inf".toList ∨ name = "infinity".toList then
    return if negative then -1.0 / 0.0 else 1.0 / 0.0
  if name = "nan".toList then
    return 0.0 / 0.0
  let whole := body.takeWhile Text.isDigit
  let rest := body.dropWhile Text.isDigit
  let (part, rest) := match rest with
    | '.' :: rest => (rest.takeWhile Text.isDigit, rest.dropWhile Text.isDigit)
    | rest => ([], rest)
  if whole.isEmpty && part.isEmpty then none
  let e ← exponent? rest
  return toFloat negative (Text.ofDigits (values (whole ++ part))) (e - part.length)

end ScriptIndex.Decimal
