import HeaderWrap.Run

/-! Rendering the templates, and what is amiss with their sites. -/
namespace HeaderWrap.Run

structure RenderedFile where
  template : Template
  kind : FileKind
  path : String
  filled : Filled

def renderTemplate (r : Run) (t : Template) : List RenderedFile :=
  [FileKind.header, .implementation].filterMap fun kind => do
    let file ← t.file? kind
    let filled ← t.render? r.groups r.rendering kind
    return ⟨t, kind, file.path, filled⟩

/-- Whether a token stands for a group with functions, so that a missing site loses something. -/
def holdsFunctions (r : Run) (token : String) : Bool :=
  (r.groups.get? token).any (!·.isEmpty)

def fileDiagnostics (r : Run) (f : RenderedFile) : List Diagnostic :=
  let lost : Severity := if r.model.options.strictTokens then .error else .warning
  ((f.filled.missing.filter r.holdsFunctions).map fun token =>
    ⟨lost, Phase.render.name, .missingToken f.template.name token, some f.path⟩) ++
  f.filled.unresolved.map fun token =>
    ⟨.warning, Phase.render.name, .leftToken token, some f.path⟩

def render (r : Run) : Run :=
  let files := r.templates.flatMap r.renderTemplate
  { r with
    outputs := files.map fun f => ⟨f.path, f.kind, f.template.name, f.filled.text⟩
    diagnostics := r.diagnostics ++ files.flatMap r.fileDiagnostics }

end HeaderWrap.Run
