import ScriptIndex.Category
import Std.Data.ExtTreeMap
import Std.Data.ExtTreeSet

namespace ScriptIndex

/-- Profiles by name, and the name that each type keyword stands for. -/
structure Registry where
  profiles : Std.ExtTreeMap String Profile := ∅
  keywords : Std.ExtTreeMap String String := ∅

/-- A keyword that already stands for another name. -/
structure Registry.Conflict where
  keyword : String
  holder : String
  claimant : String
  deriving DecidableEq, Repr

def Registry.Conflict.message (c : Conflict) : String :=
  "Type keyword " ++ c.keyword ++ " already registered to " ++ c.holder
    ++ ", cannot register to " ++ c.claimant

namespace Registry

def conflict? (r : Registry) (p : Profile) : Option Conflict :=
  p.keywords.findSome? fun keyword =>
    match r.keywords[keyword]? with
    | some holder =>
      if holder ≠ "" ∧ holder ≠ p.id then some ⟨keyword, holder, p.id⟩ else none
    | none => none

/-- Adds a profile, unless one of its keywords stands for another name. -/
def register (r : Registry) (p : Profile) : Except Conflict Registry :=
  match r.conflict? p with
  | some c => .error c
  | none =>
    .ok { profiles := r.profiles.insert p.id p
          keywords := p.keywords.foldl (fun m keyword => m.insert keyword p.id) r.keywords }

def idOf (r : Registry) (keyword : String) : String :=
  (r.keywords[keyword]?).getD Category.unknown.id

/-- The profile that a type keyword stands for. -/
def resolve (r : Registry) (keyword : String) : Profile :=
  (r.profiles[r.idOf keyword]?).getD Category.unknown.profile

def declaringFileTypes (r : Registry) : Std.ExtTreeSet String :=
  r.profiles.foldl (fun types _ p => if p.referenceOnly then types else types.insertMany p.fileTypes) ∅

def contains (r : Registry) (id : String) : Bool :=
  r.profiles.contains id

def size (r : Registry) : Nat :=
  r.profiles.size

def standard : Registry :=
  Category.all.foldl (fun r c => (r.register c.profile).toOption.getD r) {}

end Registry

end ScriptIndex
