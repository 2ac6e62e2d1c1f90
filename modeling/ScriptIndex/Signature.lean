import ScriptIndex.Category
import ScriptIndex.Text.Pieces

namespace ScriptIndex

/-- A parameter: its type keyword and its name. -/
structure Parameter where
  type : String
  name : String
  deriving DecidableEq, Repr

def Parameter.category (p : Parameter) : Category :=
  Category.ofKeyword p.type

def Parameter.text (p : Parameter) : String :=
  p.type ++ " " ++ p.name

def Parameter.parse? (piece : List Char) : Option Parameter :=
  match List.splitOn ' ' (Text.strip piece) with
  | [type, name] => some ⟨String.ofList type, String.ofList name⟩
  | _ => none

/-- The parameters and the categories of the results of a script. -/
structure Signature where
  params : List Parameter
  returns : List Category
  returnsText : String
  deriving DecidableEq, Repr

namespace Signature

def paramsText (s : Signature) : String :=
  ", ".intercalate (s.params.map Parameter.text)

def parenthesized (line : Line) : Option (List Char) × List Char :=
  match line.idxOf? ')' with
  | none => (none, [])
  | some closing =>
    let rest := line.drop (closing + 1)
    match line.idxOf? '(' with
    | some opening =>
      if opening + 1 < closing then (some ((line.take closing).drop (opening + 1)), rest)
      else (none, rest)
    | none => (none, rest)

def pieces (group : Option (List Char)) : List (List Char) :=
  match group with
  | some text => List.splitOn ',' text
  | none => []

/-- Reads the signature on a line. Pieces that are no parameters are left out; an empty line has no
signature. -/
def parse? (line : Line) : Option Signature :=
  if line = [] then none
  else
    let (params, rest) := parenthesized line
    let (returns, _) := parenthesized rest
    some {
      params := (pieces params).filterMap Parameter.parse?
      returns := (pieces returns).map fun piece => Category.ofKeyword (String.ofList (Text.strip piece))
      returnsText := String.ofList (returns.getD []) }

end Signature

end ScriptIndex
