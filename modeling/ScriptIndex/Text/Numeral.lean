import ScriptIndex.Text.Classes

/-! Numbers written in a text: a sign, digits of any script with single underscores between them, and
blanks around it all. -/
namespace ScriptIndex.Text

def unpad (text : List Char) : List Char :=
  ((text.dropWhile isPadding).reverse.dropWhile isPadding).reverse

def digits? : List Char → Option (List Nat)
  | [] => none
  | [c] => (digit? c).map ([·])
  | c :: '_' :: rest => do
    let d ← digit? c
    (d :: ·) <$> digits? rest
  | c :: rest => do
    let d ← digit? c
    (d :: ·) <$> digits? rest

def ofDigits (digits : List Nat) : Nat :=
  digits.foldl (fun n d => 10 * n + d) 0

def digitLimit : Nat := 4300

def unsign : List Char → Bool × List Char
  | '-' :: rest => (true, rest)
  | '+' :: rest => (false, rest)
  | text => (false, text)

def int? (text : List Char) : Option Int :=
  let (negative, rest) := unsign (unpad text)
  match digits? rest with
  | some digits =>
    if digits.length ≤ digitLimit then
      some (if negative then -(ofDigits digits : Int) else ofDigits digits)
    else none
  | none => none

end ScriptIndex.Text
