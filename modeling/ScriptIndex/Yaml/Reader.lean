import ScriptIndex.Settings.Store
import ScriptIndex.Yaml.Node
import ScriptIndex.Yaml.Scalar

/-! The value of a settings file. Lists and mappings are filled level by level, so of several things that
are wrong in them the one that is nested least comes first. -/
namespace ScriptIndex.Yaml

namespace Node

def meaning (text : String) (isPlain : Bool) : Meaning :=
  if isPlain then Yaml.meaning text else .value (.text text)

def textFailure? (text : String) (isPlain : Bool) : Option Failure :=
  match meaning text isPlain with
  | .value _ => none
  | .noSuchValue => some .noSuchValue
  | .merge | .equals => some .malformed

def keyFailure? : Node → Option Failure
  | .scalar text isPlain =>
    match meaning text isPlain with
    | .noSuchValue => some .noSuchValue
    | .value _ | .merge | .equals => none
  | .list _ | .mapping _ => some .malformed

def key : Node → Datum.Key
  | .scalar text isPlain =>
    match meaning text isPlain with
    | .value v => v
    | .merge | .equals | .noSuchValue => .text text
  | .list _ | .mapping _ => .null

def merges : Node → Bool
  | .scalar text isPlain => (meaning text isPlain matches .merge)
  | .list _ | .mapping _ => false

/-- The entries of a mapping, behind those that are merged into it. These come from a mapping or from a
list of mappings, of which the later ones come first. -/
def mergedEntries? (fuel : Nat) (entries : List (Node × Node)) : Option (List (Node × Node)) :=
  match fuel with
  | 0 => none
  | fuel + 1 => do
    let ofMapping : Node → Option (List (Node × Node))
      | .mapping entries => mergedEntries? fuel entries
      | _ => none
    let sources := (entries.filter fun (k, _) => k.merges).map Prod.snd
    let merged ← sources.mapM fun source =>
      match source with
      | .list items => (items.mapM ofMapping).map fun all => all.reverse.flatten
      | source => ofMapping source
    return merged.flatten ++ entries.filter fun (k, _) => !k.merges

def inspect (fuel : Nat) : Node → Option Failure × List Node
  | .scalar text isPlain => (textFailure? text isPlain, [])
  | .list items => members items
  | .mapping entries =>
    match mergedEntries? fuel entries with
    | none => (some .malformed, [])
    | some entries =>
      entries.foldl (fun (found, inner) (k, value) =>
        let (more, deeper) := members [value]
        (found.or (k.keyFailure?.or more), inner ++ deeper)) (none, [])
where
  /-- What is wrong with the texts among some nodes, and the others. -/
  members (nodes : List Node) : Option Failure × List Node :=
    (nodes.findSome? fun
      | .scalar text isPlain => textFailure? text isPlain
      | .list _ | .mapping _ => none,
     nodes.filter fun node => !(node matches .scalar ..))

def failure? (fuel : Nat) (nodes : List Node) : Option Failure :=
  match fuel, nodes with
  | 0, _ | _, [] => none
  | fuel + 1, nodes =>
    let seen := nodes.map (inspect fuel)
    (seen.findSome? Prod.fst).or (failure? fuel (seen.flatMap Prod.snd))

def value (fuel : Nat) (node : Node) : Datum :=
  match fuel, node with
  | 0, _ => .null
  | _, .scalar text isPlain => (key (.scalar text isPlain)).toDatum
  | fuel + 1, .list items => .list (items.map (value fuel))
  | fuel + 1, .mapping entries =>
    .map (((mergedEntries? fuel entries).getD []).foldl (fun done (k, node) =>
      Settings.assign k.key (value fuel node) done) [])

end Node

def read (text : List Char) : Except Failure Datum := do
  let tokens ← Token.ofText text
  let node ← Node.ofTokens tokens
  let fuel := tokens.length + 2
  match Node.failure? fuel [node] with
  | some e => .error e
  | none => return node.value fuel

def parse (text : String) : Document :=
  match read text.toList with
  | .ok value => .value value
  | .error .malformed => .malformed
  | .error .noSuchValue => .broken .noSuchValue

end ScriptIndex.Yaml
