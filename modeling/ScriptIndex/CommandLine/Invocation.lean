import ScriptIndex.CommandLine.Arguments

namespace ScriptIndex.CommandLine

inductive Command where
  | index (dump keys : Option String)
  | lookup (name : String) (category : Option String)
  | matchWord (file : String) (line column : Option Int)
  | references (file : String) (line column : Option Int)
  | config (key value : Option String) (forUser : Bool)
  deriving DecidableEq, Repr

structure Invocation where
  project : Option (Option String)
  logLevel : Option String
  command : Option Command
  deriving DecidableEq, Repr

private def helpOption : OptionSpec := ⟨"help", ["-h", "--help"], .help⟩

def globalOptions : List OptionSpec :=
  [helpOption, ⟨"project", ["--project", "-p"], .value⟩, ⟨"log-level", ["--log-level"], .value⟩,
    ⟨"version", ["--version", "-V"], .version⟩]

private def positionPlaces : List Place :=
  [⟨"file", false, false⟩, ⟨"line", false, true⟩, ⟨"column", false, true⟩]

private def word? (values : Values) (id : String) : Option String :=
  (last? values id).join

private def number? (values : Values) (id : String) : Option Int :=
  (word? values id).bind fun s => Text.int? s.toList

private def word (values : Values) (id : String) : String :=
  (word? values id).getD ""

def command (name : String) (args : List String) : Except Stop Command := do
  match name with
  | "index" =>
    let values ← read [helpOption, ⟨"dump", ["--dump"], .value⟩, ⟨"keys", ["--keys"], .value⟩] [] args
    return .index (word? values "dump") (word? values "keys")
  | "lookup" =>
    let values ← read [helpOption] [⟨"name", false, false⟩, ⟨"category", false, false⟩] args
    return .lookup (word values "name") (word? values "category")
  | "match" =>
    let values ← read [helpOption] positionPlaces args
    return .matchWord (word values "file") (number? values "line") (number? values "column")
  | "references" =>
    let values ← read [helpOption] positionPlaces args
    return .references (word values "file") (number? values "line") (number? values "column")
  | "config" =>
    let values ← read [helpOption, ⟨"user", ["--user"], .switch⟩]
      [⟨"key", true, false⟩, ⟨"value", true, false⟩] args
    return .config (word? values "key") (word? values "value") (last? values "user").isSome
  | _ => .error .misuse

def splitCommand (args : List String) : List Token → List Token × List String
  | [] => ([], [])
  | .option o form tail :: .word s :: rest =>
    if o.kind = .value ∧ tail = none then
      let (front, back) := splitCommand (args.drop 2) rest
      (.option o form tail :: .word s :: front, back)
    else if o.kind = .value then ([.option o form tail], args.drop 1)
    else ([.option o form tail, .word s], args.drop 1)
  | .word _ :: _ => ([], args)
  | token :: rest =>
    let (front, back) := splitCommand (args.drop 1) rest
    (token :: front, back)

def invocation (args : List String) : Except Stop Invocation := do
  match tokens? globalOptions args with
  | none => .error .misuse
  | some tokens =>
    let (front, back) := splitCommand args tokens
    let values ← collect globalOptions [] [] .other false (front.filter (· ≠ .stray))
    let command ← match back with
      | [] => .ok none
      | name :: args => some <$> command name args
    if front.contains .stray then .error .misuse
    else return { project := last? values "project", logLevel := word? values "log-level",
                  command := command }

end ScriptIndex.CommandLine
