import ScriptIndex.Encoding
import ScriptIndex.Path
import Std.Data.ExtTreeMap

/-! A tree of files. Everything in it stands at a place, which is the list of names that lead to it from
the root. Absolute paths are followed part by part, since a part `..` leads back only from a directory
that is there. -/
namespace ScriptIndex

/-- What stands at a place. -/
inductive Node where
  | file (content : List UInt8)
  | directory

/-- A tree of files. Only directories have something below them. -/
structure Disk where
  nodes : Std.ExtTreeMap (List String) Node := ∅

/-- Why a file could not be read or written. -/
inductive DiskError where
  | notFound
  | isDirectory
  | notADirectory
  | exists
  | nameTooLong
  /-- The path has a character in it that no name may have. -/
  | unusable
  deriving DecidableEq, Repr

def DiskError.message (e : DiskError) (path : String) : String :=
  let about (text : String) := text ++ ": " ++ Text.quoted path
  match e with
  | .notFound => about "[Errno 2] No such file or directory"
  | .isDirectory => about "[Errno 21] Is a directory"
  | .notADirectory => about "[Errno 20] Not a directory"
  | .exists => about "[Errno 17] File exists"
  | .nameTooLong => about "[Errno 36] File name too long"
  | .unusable => "embedded null byte"

namespace Disk

def node? (d : Disk) (place : List String) : Option Node :=
  if place = [] then some .directory else d.nodes[place]?

def isFile (d : Disk) (place : List String) : Bool :=
  match d.node? place with
  | some (.file _) => true
  | _ => false

def isDirectory (d : Disk) (place : List String) : Bool :=
  match d.node? place with
  | some .directory => true
  | _ => false

def nameLimit : Nat := 255

def pathLimit : Nat := 4095

def enter (d : Disk) (place : List String) (part : String) : Except DiskError (List String) :=
  match d.node? place with
  | none => .error .notFound
  | some (.file _) => .error .notADirectory
  | some .directory =>
    if part = ".." then .ok place.dropLast
    else if nameLimit < part.utf8ByteSize then .error .nameTooLong
    else .ok (place ++ [part])

def locate (d : Disk) (parts : List String) : Except DiskError (List String) :=
  if parts.any fun part => part.toList.contains (Char.ofNat 0) then .error .unusable
  else if pathLimit < parts.foldl (fun n part => n + part.utf8ByteSize + 1) 0 then .error .nameTooLong
  else parts.foldlM d.enter []

def leadsSomewhere (d : Disk) (parts : List String) : Except DiskError Bool :=
  match d.locate parts with
  | .ok place => .ok (d.node? place).isSome
  | .error .nameTooLong => .error .nameTooLong
  | .error _ => .ok false

def read (d : Disk) (parts : List String) : Except DiskError (List UInt8) := do
  match d.node? (← d.locate parts) with
  | some (.file content) => return content
  | some .directory => .error .isDirectory
  | none => .error .notFound

def write (d : Disk) (parts : List String) (content : List UInt8) : Except DiskError Disk := do
  let place ← d.locate parts
  if d.isDirectory place then .error .isDirectory
  else return { nodes := d.nodes.insert place (.file content) }

def makeDirectory (d : Disk) (parts : List String) : Except DiskError Disk := do
  let place ← d.locate parts
  if (d.node? place).isSome then .error .exists
  else return { nodes := d.nodes.insert place .directory }

def ensureDirectory (d : Disk) (parts : List String) : Except DiskError Disk :=
  match d.makeDirectory parts, d.locate parts with
  | .error .exists, .ok place => if d.isDirectory place then .ok d else .error .exists
  | made, _ => made

def makeDirectories (d : Disk) (parts : List String) : Disk × Except DiskError Unit :=
  match d.ensureDirectory parts with
  | .ok d => (d, .ok ())
  | .error .notFound =>
    if h : parts = [] then (d, .error .notFound)
    else
      have : parts.length - 1 < parts.length := by
        have := List.length_pos_iff.mpr h
        omega
      match d.makeDirectories parts.dropLast with
      | (d, .error e) => (d, .error e)
      | (d, .ok ()) =>
        match d.ensureDirectory parts with
        | .ok d => (d, .ok ())
        | .error e => (d, .error e)
  | .error e => (d, .error e)
termination_by parts.length
decreasing_by simpa using this

def writeBelow (d : Disk) (parts : List String) (content : List UInt8) :
    Disk × Except DiskError Unit :=
  match d.makeDirectories parts.dropLast with
  | (d, .error e) => (d, .error e)
  | (d, .ok ()) =>
    match d.write parts content with
    | .ok d => (d, .ok ())
    | .error e => (d, .error e)

def remove (d : Disk) (parts : List String) : Except DiskError Disk := do
  let place ← d.locate parts
  if (d.node? place).isNone then .error .notFound
  else return { nodes := d.nodes.filter fun path _ => !place.isPrefixOf path }

/-- Moves what a path leads to, and everything below it, to where another path leads. A file that stands
there is replaced by a file. -/
def move (d : Disk) (source target : List String) : Except DiskError Disk := do
  let old ← d.locate source
  let new ← d.locate target
  if (d.node? old).isNone then .error .notFound
  else if d.isFile old && d.isDirectory new then .error .isDirectory
  else if d.isDirectory old && d.isFile new then .error .notADirectory
  else
    let moved := d.nodes.toList.filterMap fun (path, node) =>
      if old.isPrefixOf path then some (new ++ path.drop old.length, node) else none
    return { nodes := (← d.remove source).nodes.insertMany moved }

def placesBelow (d : Disk) (place : List String) : List (List String) :=
  d.nodes.keys.filter fun path => place.isPrefixOf path && path.length != place.length

end Disk

end ScriptIndex
