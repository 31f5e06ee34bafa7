import HeaderWrap.Diagnostic
import HeaderWrap.Model
import HeaderWrap.Template

/-! A generation run: what it has read, collected and rendered so far. -/
namespace HeaderWrap

inductive Phase where
  | load
  | collect
  | render
  deriving DecidableEq, Repr

namespace Phase

def name : Phase → String
  | load => "load"
  | collect => "collect"
  | render => "render"

def description : Phase → String
  | load => "Read headers and templates"
  | collect => "Parse headers into class models"
  | render => "Render templates"

end Phase

structure LoadedHeader where
  entry : HeaderEntry
  text : String
  deriving DecidableEq, Repr

structure Output where
  path : String
  kind : FileKind
  template : String
  content : String
  deriving DecidableEq, Repr

structure Run where
  model : Model
  registry : Registry
  headers : List LoadedHeader
  templates : List Template
  groups : Groups
  outputs : List Output
  diagnostics : List Diagnostic

namespace Run

/-- A run that has done nothing yet. The types of the model go on top of the registry. -/
def start (model : Model) (registry : Registry) : Run :=
  ⟨model, registry.extend model.types.entries, [], [], ∅, [], []⟩

def rendering (r : Run) : Rendering := ⟨r.registry, r.model.options⟩

def ofSeverity (r : Run) (severity : Severity) : List Diagnostic :=
  Diagnostic.ofSeverity severity r.diagnostics

end Run
end HeaderWrap
