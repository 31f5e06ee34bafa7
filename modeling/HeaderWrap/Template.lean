import HeaderWrap.Group
import HeaderWrap.Template.Text

/-! Templates: a header and an implementation file that receive the rendered groups. -/
namespace HeaderWrap

structure TemplateFile where
  path : String
  text : TemplateText
  deriving DecidableEq, Repr

inductive FileKind where
  | header
  | implementation
  deriving DecidableEq, Repr

structure Template where
  name : String
  classes : List String
  header? : Option TemplateFile
  implementation? : Option TemplateFile
  deriving DecidableEq, Repr

namespace Template

/-- The groups rendered into the template: its classes, then the free functions of its own name. -/
def slots (t : Template) : List String :=
  t.classes ++ if t.classes.contains t.name then [] else [t.name]

def file? (t : Template) : FileKind → Option TemplateFile
  | .header => t.header?
  | .implementation => t.implementation?

end Template

def Group.textFor (g : Group) (r : Rendering) : FileKind → String
  | .header => g.headerText r
  | .implementation => g.implementationText r

namespace Template

def contents (t : Template) (groups : Groups) (r : Rendering) (kind : FileKind) :
    List (String × String) :=
  (t.slots.filterMap groups.get?).map fun g => (g.name, g.textFor r kind)

def render? (t : Template) (groups : Groups) (r : Rendering) (kind : FileKind) : Option Filled :=
  (t.file? kind).map fun file => file.text.fill (t.contents groups r kind)

end Template
end HeaderWrap
