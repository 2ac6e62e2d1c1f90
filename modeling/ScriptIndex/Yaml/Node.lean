import ScriptIndex.Yaml.Token

namespace ScriptIndex.Yaml

inductive Node where
  | scalar (text : String) (isPlain : Bool)
  | list (items : List Node)
  | mapping (entries : List (Node × Node))
  deriving Repr, Inhabited

namespace Node

def empty : Node := .scalar "" true

def comesNext (marks : List Token) (tokens : List Token) : Bool :=
  tokens.head?.any marks.contains

def refusal (tokens : List Token) : Failure :=
  if tokens.head? = some .noSuchCharacter then .noSuchValue else .malformed

def behindComma (isFirst : Bool) (tokens : List Token) : Except Failure (List Token) :=
  match isFirst, tokens with
  | true, tokens => .ok tokens
  | false, .comma :: rest => .ok rest
  | false, tokens => .error (refusal tokens)

mutual

/-- Reads a node. Lists and mappings by indentation are read only `inBlock`, and a list that is not
indented further than the key it belongs to only `behindKey`. -/
def read (fuel : Nat) (inBlock behindKey : Bool) (tokens : List Token) :
    Except Failure (Node × List Token) :=
  match fuel, tokens with
  | _ + 1, .scalar text isPlain :: rest => .ok (.scalar text isPlain, rest)
  | fuel + 1, .openBracket :: rest => flowItems fuel true [] rest
  | fuel + 1, .openBrace :: rest => flowEntries fuel true [] rest
  | fuel + 1, .listStart :: rest => if inBlock then items fuel [] rest else .error .malformed
  | fuel + 1, .mappingStart :: rest => if inBlock then entries fuel [] rest else .error .malformed
  | fuel + 1, .dash :: rest => if behindKey then flatItems fuel [] (.dash :: rest) else .error .malformed
  | _, tokens => .error (refusal tokens)

def readUnless (fuel : Nat) (marks : List Token) (inBlock behindKey : Bool) (tokens : List Token) :
    Except Failure (Node × List Token) :=
  match fuel with
  | 0 => .error .malformed
  | fuel + 1 =>
    if comesNext marks tokens then .ok (empty, tokens) else read fuel inBlock behindKey tokens

def readValue (fuel : Nat) (marks : List Token) (inBlock behindKey : Bool) (tokens : List Token) :
    Except Failure (Node × List Token) :=
  match fuel, tokens with
  | 0, _ => .error .malformed
  | fuel + 1, .colon :: rest => readUnless fuel marks inBlock behindKey rest
  | _, tokens => .ok (empty, tokens)

def items (fuel : Nat) (done : List Node) (tokens : List Token) : Except Failure (Node × List Token) :=
  match fuel, tokens with
  | fuel + 1, .dash :: rest => do
    let (item, rest) ← readUnless fuel [.dash, .blockEnd] true false rest
    items fuel (item :: done) rest
  | _, .blockEnd :: rest => .ok (.list done.reverse, rest)
  | _, tokens => .error (refusal tokens)

def flatItems (fuel : Nat) (done : List Node) (tokens : List Token) :
    Except Failure (Node × List Token) :=
  match fuel, tokens with
  | fuel + 1, .dash :: rest => do
    let (item, rest) ← readUnless fuel [.dash, .key, .colon, .blockEnd] true false rest
    flatItems fuel (item :: done) rest
  | 0, .dash :: _ => .error .malformed
  | _, tokens => .ok (.list done.reverse, tokens)

def entries (fuel : Nat) (done : List (Node × Node)) (tokens : List Token) :
    Except Failure (Node × List Token) :=
  match fuel, tokens with
  | fuel + 1, .key :: rest => do
    let marks := [Token.key, .colon, .blockEnd]
    let (key, rest) ← readUnless fuel marks true true rest
    let (value, rest) ← readValue fuel marks true true rest
    entries fuel ((key, value) :: done) rest
  | _, .blockEnd :: rest => .ok (.mapping done.reverse, rest)
  | _, tokens => .error (refusal tokens)

def flowItems (fuel : Nat) (isFirst : Bool) (done : List Node) (tokens : List Token) :
    Except Failure (Node × List Token) :=
  match fuel, tokens with
  | 0, _ => .error .malformed
  | _, .closeBracket :: rest => .ok (.list done.reverse, rest)
  | fuel + 1, tokens => do
    match ← behindComma isFirst tokens with
    | .closeBracket :: rest => return (.list done.reverse, rest)
    | .key :: rest =>
      let (key, rest) ← readUnless fuel [.colon, .comma, .closeBracket] false false rest
      let (value, rest) ← readValue fuel [.comma, .closeBracket] false false rest
      flowItems fuel false (.mapping [(key, value)] :: done) rest
    | tokens =>
      let (item, rest) ← read fuel false false tokens
      flowItems fuel false (item :: done) rest

def flowEntries (fuel : Nat) (isFirst : Bool) (done : List (Node × Node)) (tokens : List Token) :
    Except Failure (Node × List Token) :=
  match fuel, tokens with
  | 0, _ => .error .malformed
  | _, .closeBrace :: rest => .ok (.mapping done.reverse, rest)
  | fuel + 1, tokens => do
    match ← behindComma isFirst tokens with
    | .closeBrace :: rest => return (.mapping done.reverse, rest)
    | .key :: rest =>
      let (key, rest) ← readUnless fuel [.colon, .comma, .closeBrace] false false rest
      let (value, rest) ← readValue fuel [.comma, .closeBrace] false false rest
      flowEntries fuel false ((key, value) :: done) rest
    | tokens =>
      let (key, rest) ← read fuel false false tokens
      flowEntries fuel false ((key, empty) :: done) rest

end

def ofTokens (tokens : List Token) : Except Failure Node := do
  let fuel := 4 * tokens.length + 4
  let (node, rest) ← match tokens with
    | [] | [.documentStart] => .ok (empty, [])
    | .documentStart :: rest => readUnless fuel [.documentStart, .documentEnd] true false rest
    | tokens => read fuel true false tokens
  match rest.dropWhile (· = .documentEnd) with
  | [] => return node
  | rest => .error (refusal rest)

end Node

end ScriptIndex.Yaml
