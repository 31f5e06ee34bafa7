import HeaderWrap.Run

/-! Collecting the functions of the headers into groups. Each function goes to every class whose
target is its entity prefix; one without a prefix goes to the group of its header. -/
namespace HeaderWrap

def LoadedHeader.functions (registry : Registry) (h : LoadedHeader) : List Function :=
  (Function.ofHeader registry h.text).filter fun f => !h.entry.isExcluded f.name

namespace Run

def targets (groups : Groups) : List (String × String) :=
  groups.values.filterMap fun g => g.target?.map (g.name, ·)

def distribute (targets : List (String × String)) (groups : Groups) (fs : List Function) :
    Groups :=
  targets.foldl (fun gs (name, target) =>
    gs.addTo name (some target) (fs.filter (·.isOf (some target)))) groups

def collectHeader (registry : Registry) (targets : List (String × String)) (groups : Groups)
    (h : LoadedHeader) : Groups :=
  let fs := h.functions registry
  (distribute targets groups fs).addFree h.entry.group (fs.filter (·.isOf none))

def isUnclaimed (targets : List String) (f : Function) : Bool :=
  f.entityPrefix?.any (!targets.contains ·)

/-- Adds the functions that belong to no class to a count of 32 bits, which wraps. -/
def countUnclaimed (targets : List String) (count : Int32) (fs : List Function) : Int32 :=
  fs.foldl (fun n f => if isUnclaimed targets f then n + 1 else n) count

/-- Collects the functions of all headers into the classes of the model and into new groups of free
functions, and reports how many belong to none. -/
def collect (r : Run) : Run :=
  let classes := Groups.ofClasses (r.model.classes.map fun c => (c.name, c.type))
  let targets := targets classes
  let unclaimed := r.headers.foldl (fun count h =>
    countUnclaimed (targets.map Prod.snd) count (h.functions r.registry)) 0
  { r with
    groups := r.headers.foldl (collectHeader r.registry targets) classes
    diagnostics := r.diagnostics ++
      if 0 < unclaimed then
        [⟨.info, Phase.collect.name, .unclaimed unclaimed.toNatClampNeg, none⟩]
      else [] }

end Run
end HeaderWrap
