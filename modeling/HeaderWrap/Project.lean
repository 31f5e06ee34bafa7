import HeaderWrap.Disk
import HeaderWrap.Model.Reading
import HeaderWrap.Run.Complete

/-! Projects: a model on disk. Its paths begin at the directory that holds it. -/
namespace HeaderWrap

structure Project where
  path : String
  content : String
  model : Model

namespace Project
variable {m : Type → Type} [Monad m] [Disk m]

private def ofText (path content : String) : Except Model.Error Project :=
  (Model.read (.ofPath path) content).map (⟨path, content, ·⟩)

def read (path : String) : m (Except Model.Error Project) := do
  match ← Disk.readText path with
  | .error cause => return .error (.unreadable path cause)
  | .ok content => return ofText path content

def directory (p : Project) : String := (Path.parent? p.path).getD ""

def resolve (p : Project) (path : String) : String := Path.join p.directory path

def sourceDirectory (p : Project) : String := p.resolve p.model.roots.sources

def templateDirectory (p : Project) : String := p.resolve p.model.roots.templates

def outputDirectory (p : Project) : String := p.resolve p.model.roots.output

def sources (p : Project) : Sources m :=
  .ofDirectories p.sourceDirectory p.templateDirectory

def run (p : Project) : m (Except Failure Run) := Run.complete p.model .lvgl p.sources

end Project
end HeaderWrap
