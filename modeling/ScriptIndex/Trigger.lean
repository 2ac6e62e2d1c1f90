import ScriptIndex.Category
import ScriptIndex.Text.Letters
import ScriptIndex.Text.Pieces

namespace ScriptIndex

structure Trigger where
  category : Category
  declares : Bool := false
  deriving DecidableEq, Repr

namespace Trigger

private def fiveOf (stem : String) (target : Category) : List (String × Trigger) :=
  ["1", "2", "3", "4", "5"].map fun n => (stem ++ n, ⟨target, false⟩)

private def declaring : List (String × Trigger) :=
  [("proc", ⟨.proc, true⟩), ("label", ⟨.label, true⟩), ("queue", ⟨.queue, true⟩),
    ("weakqueue", ⟨.queue, true⟩), ("longqueue", ⟨.queue, true⟩), ("timer", ⟨.timer, true⟩),
    ("softtimer", ⟨.softTimer, true⟩), ("walktrigger", ⟨.walkTrigger, true⟩),
    ("command", ⟨.command, true⟩), ("debugproc", ⟨.proc, true⟩)]

private def onNpcs : List (String × Trigger) :=
  fiveOf "opnpc" .npc ++ fiveOf "apnpc" .npc
    ++ [("opnpcu", ⟨.npc, false⟩), ("apnpcu", ⟨.npc, false⟩), ("opnpct", ⟨.component, false⟩),
      ("apnpct", ⟨.component, false⟩), ("ai_queue1", ⟨.npc, false⟩), ("ai_queue2", ⟨.npc, false⟩),
      ("ai_queue3", ⟨.npc, false⟩), ("ai_timer", ⟨.npc, false⟩), ("ai_spawn", ⟨.npc, false⟩),
      ("ai_despawn", ⟨.npc, false⟩)]
    ++ fiveOf "ai_opplayer" .npc ++ fiveOf "ai_applayer" .npc

private def onLocs : List (String × Trigger) :=
  fiveOf "oploc" .loc ++ fiveOf "aploc" .loc
    ++ [("oplocu", ⟨.loc, false⟩), ("aplocu", ⟨.loc, false⟩), ("oploct", ⟨.component, false⟩),
      ("aploct", ⟨.component, false⟩)]

private def onObjs : List (String × Trigger) :=
  fiveOf "opobj" .obj ++ fiveOf "apobj" .obj ++ fiveOf "opheld" .obj
    ++ [("opobju", ⟨.obj, false⟩), ("apobju", ⟨.obj, false⟩), ("opobjt", ⟨.component, false⟩),
      ("apobjt", ⟨.component, false⟩), ("opheldu", ⟨.obj, false⟩), ("opheldt", ⟨.component, false⟩)]

private def onPlayers : List (String × Trigger) :=
  fiveOf "opplayer" .unknown ++ fiveOf "applayer" .unknown
    ++ [("opplayeru", ⟨.obj, false⟩), ("opplayert", ⟨.component, false⟩)]

private def onInterfaces : List (String × Trigger) :=
  fiveOf "inv_button" .component
    ++ [("inv_buttond", ⟨.component, false⟩), ("if_button", ⟨.component, false⟩),
      ("if_close", ⟨.interface, false⟩)]

private def onEvents : List (String × Trigger) :=
  [("login", ⟨.unknown, false⟩), ("logout", ⟨.unknown, false⟩), ("tutorial", ⟨.unknown, false⟩),
    ("advancestat", ⟨.stat, false⟩), ("changestat", ⟨.stat, false⟩), ("mapzone", ⟨.unknown, false⟩),
    ("mapzoneexit", ⟨.unknown, false⟩), ("zone", ⟨.unknown, false⟩), ("zoneexit", ⟨.unknown, false⟩)]

def table : List (String × Trigger) :=
  declaring ++ onNpcs ++ onLocs ++ onObjs ++ onPlayers ++ onInterfaces ++ onEvents

def ofName? (name : String) : Option Trigger :=
  table.lookup (Text.lower name)

private def startsThen (stem : String) (rest : List Char → Bool) (text : List Char) : Bool :=
  stem.toList.isPrefixOf text && rest (text.drop stem.length)

private def isOneDigit : List Char → Bool
  | [c] => Text.isDigit c
  | _ => false

private def onTarget (stem : String) (targets : List String) (rest : List Char → Bool)
    (text : List Char) : Bool :=
  startsThen stem (fun text => targets.any fun target => startsThen target rest text) text

private def targets : List String := ["npc", "loc", "obj", "held", "player"]

def infoTable : List ((List Char → Bool) × String) :=
  [(fun t => t == "proc".toList, "A procedure, called with ~$NAME"),
    (fun t => t == "label".toList, "A label, jumped to with @$NAME"),
    (fun t => t == "queue".toList || t == "weakqueue".toList || t == "longqueue".toList,
      "A queued script, queued with queue($NAME, delay)"),
    (fun t => t == "timer".toList, "A timer script, started with settimer($NAME, interval)"),
    (fun t => t == "softtimer".toList, "A soft timer script, started with softtimer($NAME, interval)"),
    (fun t => t == "walktrigger".toList, "A walk trigger, set with walktrigger($NAME)"),
    (fun t => t == "command".toList, "An engine command"),
    (onTarget "op" targets isOneDigit,
      "Runs when the player selects an option on the $NAME target"),
    (onTarget "ap" ["npc", "loc", "obj", "player"] isOneDigit,
      "Runs when the player selects an option on the $NAME target while approaching"),
    (onTarget "op" targets (· == ['u']), "Runs when the player uses an item on $NAME"),
    (onTarget "op" targets (· == ['t']),
      "Runs when the player casts the $NAME component on a target"),
    (startsThen "ai_" fun t => !t.isEmpty && t.all Text.isWordChar,
      "An npc script that runs for $NAME"),
    (fun t => startsThen "inv_button" (fun t => isOneDigit t || t == ['d']) t
        || t == "if_button".toList,
      "Runs when the player clicks the $NAME component"),
    (fun t => t == "if_close".toList, "Runs when the $NAME interface is closed"),
    (fun t => t == "login".toList, "Runs when the player logs in"),
    (fun t => t == "logout".toList, "Runs when the player logs out")]

def template? (name : String) : Option String :=
  (infoTable.find? fun entry => Text.wholly entry.1 (Text.lower name).toList).map Prod.snd

def info? (name script : String) : Option String :=
  (template? name).map (Text.replace "$NAME" script)

end Trigger

end ScriptIndex
