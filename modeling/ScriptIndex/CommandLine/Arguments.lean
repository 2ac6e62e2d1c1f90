import ScriptIndex.Text.Numeral
import ScriptIndex.Text.Pieces

/-! Command line arguments: options with one dash or two, the long ones also in unambiguous short
forms, and words in the places between them. -/
namespace ScriptIndex.CommandLine

inductive OptionKind where
  | help
  | version
  | switch
  | value
  deriving DecidableEq, Repr

structure OptionSpec where
  id : String
  forms : List String
  kind : OptionKind
  deriving DecidableEq, Repr

structure Place where
  id : String
  isOptional : Bool := false
  isNumber : Bool := false
  deriving DecidableEq, Repr

inductive Token where
  | word (s : String)
  /-- The first `--`, behind which every argument is a word. -/
  | divider
  /-- A further `--` behind the first. -/
  | blank
  /-- An option, and what stands behind it in the same argument. -/
  | option (o : OptionSpec) (form : String) (tail : Option String)
  /-- Something that looks like an option and is none. -/
  | stray
  deriving DecidableEq, Repr

def isNegativeNumber : List Char → Bool :=
  Text.wholly fun arg =>
    match arg with
    | '-' :: rest =>
      match rest.dropWhile Text.isDigit with
      | [] => !rest.isEmpty
      | '.' :: digits => !digits.isEmpty && digits.all Text.isDigit
      | _ => false
    | _ => false

def splitValue (arg : List Char) : List Char × Option String :=
  let name := arg.takeWhile (· ≠ '=')
  (name, if name.length < arg.length then some (String.ofList (arg.drop (name.length + 1))) else none)

def find? (options : List OptionSpec) (form : String) : Option OptionSpec :=
  options.find? fun o => o.forms.contains form

/-- The options that an argument may mean that is no full form: long ones by their start, short ones
with their value right behind them. -/
def candidates (options : List OptionSpec) (arg : List Char) : List Token :=
  let all := options.flatMap fun o => o.forms.map fun form => (o, form)
  match arg with
  | '-' :: '-' :: _ =>
    let (name, tail) := splitValue arg
    (all.filter fun (_, form) => name.isPrefixOf form.toList).map fun (o, form) => .option o form tail
  | _ =>
    all.filterMap fun (o, form) =>
      if form.toList = arg.take 2 then some (.option o form (some (String.ofList (arg.drop 2))))
      else if arg.isPrefixOf form.toList then some (.option o form none)
      else none

def token? (options : List OptionSpec) (arg : String) : Option Token :=
  match arg.toList with
  | '-' :: c :: rest =>
    match find? options arg, splitValue ('-' :: c :: rest) with
    | some o, _ => some (.option o arg none)
    | none, (name, tail) =>
      match find? options (String.ofList name), tail with
      | some o, some s => some (.option o (String.ofList name) (some s))
      | _, _ =>
        match candidates options ('-' :: c :: rest) with
        | [] =>
          if isNegativeNumber ('-' :: c :: rest) || (c :: rest).contains ' ' then some (.word arg)
          else some .stray
        | [token] => some token
        | _ => none
  | _ => some (.word arg)

def tokens? (options : List OptionSpec) : List String → Option (List Token)
  | [] => some []
  | "--" :: args => some (.divider :: args.map fun arg => if arg = "--" then .blank else .word arg)
  | arg :: args => do return (← token? options arg) :: (← tokens? options args)

inductive Stop where
  | help
  | version
  | misuse
  deriving DecidableEq, Repr

/-- The values found, by the names of options and places. A value is blank where only `--` was given
for it. -/
abbrev Values := List (String × Option String)

def assigned (s : String) : Option String :=
  if s = "--" then none else some s

/-- Whether the letters behind a short option are short options too. The first of them that has a value
takes the letters behind it, or the next word, and `hasWord` says that there is one. -/
def isCluster (options : List OptionSpec) (hasWord : Bool) : List Char → Bool
  | [] => true
  | c :: rest =>
    match find? options (String.ofList ['-', c]) with
    | some o => if o.kind = .value then !rest.isEmpty || hasWord else isCluster options hasWord rest
    | none => false

def isComplete (options : List OptionSpec) (hasWord : Bool) (form : String) : Option String → Bool
  | none => true
  | some tail => form.length = 2 && tail ≠ "" && isCluster options hasWord tail.toList

def closePlaces (places : List Place) : List Place :=
  places.dropWhile Place.isOptional

inductive Before where
  | word
  | divider
  | other
  deriving DecidableEq, Repr

/-- Reads arguments for the given places. The divider belongs to the word before it, or else to the one
behind it, which may then be `--`; any further `--` leaves its place blank. Words that have no place are
a misuse, which is told at the end. -/
def collect (options : List OptionSpec) (places : List Place) (values : Values) (before : Before)
    (isMisused : Bool) : List Token → Except Stop Values
  | [] => if isMisused || !(closePlaces places).isEmpty then .error .misuse else .ok values
  | .word s :: rest =>
    match places with
    | [] => collect options [] values .word true rest
    | place :: places =>
      if place.isNumber && (Text.int? s.toList).isNone then .error .misuse
      else collect options places (values ++ [(place.id, some s)]) .word isMisused rest
  | .blank :: rest =>
    match places with
    | [] => collect options [] values .word true rest
    | place :: places =>
      if before = .divider then
        if place.isNumber then .error .misuse
        else collect options places (values ++ [(place.id, some "--")]) .word isMisused rest
      else collect options places (values ++ [(place.id, none)]) .word isMisused rest
  | .divider :: rest =>
    if before = .word then collect options places values .word isMisused rest
    else collect options places values .divider (isMisused || places.isEmpty) rest
  | .stray :: rest =>
    collect options (if before = .word then closePlaces places else places) values .other true rest
  | .option o form tail :: rest =>
    let places := if before = .word then closePlaces places else places
    let hasWord := rest.head?.any (· matches .word _)
    match o.kind, tail, rest with
    | .value, some value, rest =>
      collect options places (values ++ [(o.id, assigned value)]) .other isMisused rest
    | .value, none, .word value :: rest =>
      collect options places (values ++ [(o.id, some value)]) .other isMisused rest
    | .value, none, _ => .error .misuse
    | .help, tail, _ =>
      if isComplete options hasWord form tail then .error .help else .error .misuse
    | .version, tail, _ =>
      if isComplete options hasWord form tail then .error .version else .error .misuse
    | .switch, none, rest => collect options places (values ++ [(o.id, none)]) .other isMisused rest
    | .switch, some _, _ => .error .misuse

def last? (values : Values) (id : String) : Option (Option String) :=
  values.reverse.lookup id

def read (options : List OptionSpec) (places : List Place) (args : List String) : Except Stop Values :=
  match tokens? options args with
  | none => .error .misuse
  | some tokens => collect options places [] .other false tokens

end ScriptIndex.CommandLine
