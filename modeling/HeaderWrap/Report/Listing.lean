import HeaderWrap.Json.Printer
import HeaderWrap.Project
import HeaderWrap.Report

/-! Listing the declarations of a project by group. -/
namespace HeaderWrap

structure GroupListing where
  name : String
  /-- The wrapped C type, which groups of free functions lack. -/
  type? : Option String
  declarations : List String
  deriving DecidableEq, Repr

def GroupListing.kind (g : GroupListing) : String := if g.type?.isSome then "class" else "free"

structure Listing where
  groups : List GroupListing
  deriving DecidableEq, Repr

namespace Listing

def ofRun (r : Run) : Listing :=
  ⟨r.groups.values.map fun g => ⟨g.name, g.type?, g.declarations r.rendering⟩⟩

def report (l : Listing) : Report :=
  l.groups.flatMap fun g =>
    .heading (g.name ++ " (" ++ g.type?.getD "free functions" ++ ")") ::
      g.declarations.map .item ++ [.blank]

def json (l : Listing) : Json.Value :=
  .object [("classes", .array (l.groups.map fun g =>
    .object ([("name", .string g.name), ("kind", .string g.kind)] ++
      (g.type?.map fun type => ("c_type", .string type)).toList ++
      [("declarations", .array (g.declarations.map .string))])))]

end Listing

def Project.list {m : Type → Type} [Monad m] [Disk m] (p : Project) :
    m (Except Failure Listing) := do
  return ((← p.run).mapError .inRun).map .ofRun

end HeaderWrap
