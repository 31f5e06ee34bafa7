import HeaderWrap.Run
import HeaderWrap.Sources

/-! Reading the headers and templates of a model, in its order, up to the first failure. -/
namespace HeaderWrap.Run
variable {m : Type → Type} [Monad m]

def readHeaders (sources : Sources m) : List HeaderEntry → m (List LoadedHeader × Option Failure)
  | [] => return ([], none)
  | entry :: entries => do
    match ← sources.header entry.path with
    | .error f => return ([], some f)
    | .ok text =>
      let (headers, failure?) ← readHeaders sources entries
      return (⟨entry, text⟩ :: headers, failure?)

def readTemplateFile (sources : Sources m) :
    Option String → m (Except Failure (Option TemplateFile))
  | none => return .ok none
  | some path => return (← sources.template path).map fun text => some ⟨path, .parse text⟩

def readTemplate (sources : Sources m) (entry : TemplateEntry) : m (Except Failure Template) := do
  match ← readTemplateFile sources entry.headerPath? with
  | .error f => return .error f
  | .ok header? =>
    return (← readTemplateFile sources entry.implementationPath?).map fun implementation? =>
      ⟨entry.name, entry.classes, header?, implementation?⟩

def readTemplates (sources : Sources m) : List TemplateEntry → m (List Template × Option Failure)
  | [] => return ([], none)
  | entry :: entries => do
    match ← readTemplate sources entry with
    | .error f => return ([], some f)
    | .ok template =>
      let (templates, failure?) ← readTemplates sources entries
      return (template :: templates, failure?)

/-- Adds the headers and templates of the model. What was read before a failure is kept. -/
def load (sources : Sources m) (r : Run) : m (Run × Option Failure) := do
  let (headers, failure?) ← readHeaders sources r.model.headers
  let r := { r with headers := r.headers ++ headers }
  if failure?.isSome then return (r, failure?)
  else
    let (templates, failure?) ← readTemplates sources r.model.templates
    return ({ r with templates := r.templates ++ templates }, failure?)

end HeaderWrap.Run
