import HeaderWrap.Registry

/-! Models: what a generation run reads, which classes it wraps, and where it writes. -/
namespace HeaderWrap

structure Options where
  /-- The expression for the wrapped handle inside a member function. -/
  selfArg : String := "raw_ptr()"
  bodyIndent : String := "\t "
  /-- Makes every method that returns a value `const`. -/
  constGetters : Bool := false
  /-- Makes it an error, and no warning, that functions have no token in their template. -/
  strictTokens : Bool := false
  deriving DecidableEq, Repr

structure Roots where
  /-- Of the headers. -/
  sources : String := "components/lvgl/src"
  templates : String := "autogen/template"
  /-- Of the rendered files. -/
  output : String := "autogen/build"
  deriving DecidableEq, Repr

structure ClassEntry where
  name : String
  type : String
  deriving DecidableEq, Repr

structure TemplateEntry where
  name : String
  classes : List String
  header? : Option String
  implementation? : Option String
  deriving DecidableEq, Repr

namespace TemplateEntry

/-- The path of the header; an empty one counts as none. -/
def headerPath? (t : TemplateEntry) : Option String := t.header?.filter (· ≠ "")

def implementationPath? (t : TemplateEntry) : Option String := t.implementation?.filter (· ≠ "")

end TemplateEntry

structure HeaderEntry where
  path : String
  /-- The group of its functions that belong to no class. -/
  group : String
  exclude : List String
  deriving DecidableEq, Repr

def HeaderEntry.isExcluded (h : HeaderEntry) (name : String) : Bool := h.exclude.contains name

structure Model where
  roots : Roots
  options : Options
  classes : List ClassEntry
  templates : List TemplateEntry
  headers : List HeaderEntry
  /-- Conversions beside the built-in ones. -/
  types : Table String TypeEntry

namespace Model

def empty : Model := ⟨{}, {}, [], [], [], ∅⟩

instance : Inhabited Model := ⟨empty⟩

def class? (m : Model) (name : String) : Option ClassEntry := m.classes.find? (·.name == name)

def freeGroups (m : Model) : List String := (m.headers.map HeaderEntry.group).eraseDups

end Model
end HeaderWrap
