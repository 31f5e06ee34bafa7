import HeaderWrap.Function

/-! Groups of functions: one for each wrapper class, and groups of free functions. -/
namespace HeaderWrap

inductive GroupKind where
  | wrapper (type : String)
  /-- Free functions, whose definitions are not qualified. -/
  | free
  deriving DecidableEq, Repr

structure Group where
  name : String
  kind : GroupKind
  buckets : Table (Option String) (List Function)

namespace Group

def ofKind (name : String) (kind : GroupKind) : Group := ⟨name, kind, ∅⟩

def type? (g : Group) : Option String :=
  match g.kind with
  | .wrapper type => some type
  | .free => none

def isFree (g : Group) : Bool := g.kind = .free

/-- The prefix that selects the functions of a wrapper class; a type without one selects by its
whole name. -/
def target? (g : Group) : Option String :=
  g.type?.map fun type => (Naming.entityPrefix? type).getD type

def add (entity? : Option String) (g : Group) (f : Function) : Group :=
  { g with buckets := g.buckets.upsert entity? fun fs => fs.getD [] ++ [f] }

def addAll (entity? : Option String) (g : Group) (fs : List Function) : Group :=
  fs.foldl (add entity?) g

/-- The functions with the prefix that each was added under, in order of rendering: bucket by
bucket. -/
def functions (g : Group) : List (Option String × Function) :=
  g.buckets.entries.flatMap fun (entity?, fs) => fs.map (entity?, ·)

def size (g : Group) : Nat := g.functions.length

def isEmpty (g : Group) : Bool := g.size == 0

def declarations (g : Group) (r : Rendering) : List String :=
  g.functions.filterMap fun (entity?, f) => f.declaration? entity? r

def owner? (g : Group) : Option String :=
  match g.kind with
  | .wrapper _ => some g.name
  | .free => none

def definitions (g : Group) (r : Rendering) : List String :=
  g.functions.filterMap fun (entity?, f) => f.definition? entity? g.owner? r

def headerText (g : Group) (r : Rendering) : String := String.intercalate "\n" (g.declarations r)

def implementationText (g : Group) (r : Rendering) : String :=
  String.intercalate "\n" (g.definitions r)

end Group

abbrev Groups := Table String Group

namespace Groups

def put (gs : Groups) (g : Group) : Groups := gs.insert g.name g

def addTo (gs : Groups) (name : String) (entity? : Option String) (fs : List Function) : Groups :=
  gs.modify name (·.addAll entity? fs)

def getOrFree (gs : Groups) (name : String) : Group := (gs.get? name).getD (.ofKind name .free)

/-- Adds free functions to the group of a name, which is created on first use. -/
def addFree (gs : Groups) (name : String) (fs : List Function) : Groups :=
  gs.upsert name fun g? => (g?.getD (.ofKind name .free)).addAll none fs

def ofClasses (classes : List (String × String)) : Groups :=
  classes.foldl (fun gs (name, type) => gs.put (.ofKind name (.wrapper type))) ∅

end Groups
end HeaderWrap
