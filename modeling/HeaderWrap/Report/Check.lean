import HeaderWrap.Project
import HeaderWrap.Report

/-! Checking a project: a run that writes nothing. -/
namespace HeaderWrap

structure GroupSummary where
  name : String
  isFree : Bool
  functions : Nat
  deriving DecidableEq, Repr

structure Check where
  path : String
  errors : List String
  warnings : List String
  infos : List String
  groups : List GroupSummary
  files : Nat
  deriving DecidableEq, Repr

namespace Check

def ofRun (path : String) (r : Run) : Check where
  path := path
  errors := (r.ofSeverity .error).map Diagnostic.describe
  warnings := (r.ofSeverity .warning).map Diagnostic.describe
  infos := (r.ofSeverity .info).map Diagnostic.describe
  groups := r.groups.values.map fun g => ⟨g.name, g.isFree, g.size⟩
  files := r.outputs.length

def isValid (c : Check) : Bool := c.errors.isEmpty

private def summaryLine (g : GroupSummary) : ReportLine :=
  .pair g.name (toString g.functions ++ " function(s)" ++ if g.isFree then " (free)" else "")

def report (c : Check) : Report :=
  let notes := c.errors.map .error ++ c.warnings.map .warning ++
    c.infos.map fun info => .plain ("info: " ++ info)
  notes ++ (if notes.isEmpty then [] else [.blank]) ++
    .heading "Classes" :: c.groups.map summaryLine ++ [.blank] ++
    if c.isValid then
      [.plain ("✓ " ++ c.path ++ " is valid, " ++ toString c.files ++
        " file(s) would be generated")]
    else []

end Check

def Project.check {m : Type → Type} [Monad m] [Disk m] (p : Project) :
    m (Except Failure Check) := do
  return ((← p.run).mapError .inRun).map (.ofRun p.path)

end HeaderWrap
