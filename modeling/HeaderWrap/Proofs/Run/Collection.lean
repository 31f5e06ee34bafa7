import HeaderWrap.Proofs.Group
import HeaderWrap.Proofs.Lists
import HeaderWrap.Proofs.Model.Consistency
import HeaderWrap.Run.Collect

/-! What the groups are at each step of collection: the classes of the model in its order, and
behind them the groups of free functions in the order of their first use. -/
namespace HeaderWrap

/-- The entity prefix that a class asks for. -/
def ClassEntry.target (c : ClassEntry) : String := (Naming.entityPrefix? c.type).getD c.type

namespace Run

/-- The functions that some headers hold for a target, in order. -/
def claimed (registry : Registry) (headers : List LoadedHeader) (target : Option String) :
    List Function :=
  (headers.flatMap (·.functions registry)).filter (·.isOf target)

def classGroup (registry : Registry) (headers : List LoadedHeader) (c : ClassEntry) : Group :=
  (Group.ofKind c.name (.wrapper c.type)).addAll (some c.target)
    (claimed registry headers (some c.target))

@[simp] theorem name_classGroup (registry : Registry) (headers : List LoadedHeader)
    (c : ClassEntry) : (classGroup registry headers c).name = c.name :=
  Group.name_addAll _ _ _

@[simp] theorem kind_classGroup (registry : Registry) (headers : List LoadedHeader)
    (c : ClassEntry) : (classGroup registry headers c).kind = .wrapper c.type :=
  Group.kind_addAll _ _ _

@[simp] theorem functions_classGroup (registry : Registry) (headers : List LoadedHeader)
    (c : ClassEntry) : (classGroup registry headers c).functions =
      (claimed registry headers (some c.target)).map (some c.target, ·) :=
  Group.functions_filled _ _ _ _

def naming (headers : List LoadedHeader) (group : String) : List LoadedHeader :=
  headers.filter (·.entry.group = group)

private theorem naming_append (hs hs' : List LoadedHeader) (group : String) :
    naming (hs ++ hs') group = naming hs group ++ naming hs' group :=
  List.filter_append hs hs'

def freeGroup (registry : Registry) (headers : List LoadedHeader) (name : String) : Group :=
  (Group.ofKind name .free).addAll none (claimed registry (naming headers name) none)

@[simp] theorem name_freeGroup (registry : Registry) (headers : List LoadedHeader)
    (name : String) : (freeGroup registry headers name).name = name :=
  Group.name_addAll _ _ _

@[simp] theorem kind_freeGroup (registry : Registry) (headers : List LoadedHeader)
    (name : String) : (freeGroup registry headers name).kind = .free :=
  Group.kind_addAll _ _ _

@[simp] theorem functions_freeGroup (registry : Registry) (headers : List LoadedHeader)
    (name : String) : (freeGroup registry headers name).functions =
      (claimed registry (naming headers name) none).map (none, ·) :=
  Group.functions_filled _ _ _ _

private theorem claimed_append (registry : Registry) (hs hs' : List LoadedHeader)
    (target : Option String) :
    claimed registry (hs ++ hs') target =
      claimed registry hs target ++ claimed registry hs' target := by
  rw [claimed, List.flatMap_append, List.filter_append, claimed, claimed]

private theorem claimed_singleton (registry : Registry) (h : LoadedHeader) (target : Option String) :
    claimed registry [h] target = (h.functions registry).filter (·.isOf target) := by
  rw [claimed, List.flatMap_cons, List.flatMap_nil, List.append_nil]

theorem mem_claimed {registry : Registry} {headers : List LoadedHeader}
    {target : Option String} {f : Function} :
    f ∈ claimed registry headers target ↔
      (∃ h ∈ headers, f ∈ h.functions registry) ∧ f.entityPrefix? = target := by
  rw [claimed, List.mem_filter, List.mem_flatMap, Function.isOf, beq_iff_eq]

/-- What the groups are once some headers are collected. -/
structure Collected (registry : Registry) (classes : List ClassEntry)
    (headers : List LoadedHeader) (groups : Groups) : Prop where
  keys : groups.keys =
    classes.map ClassEntry.name ++ (headers.map (·.entry.group)).eraseDups
  ofClass : ∀ c ∈ classes, groups.get? c.name = some (classGroup registry headers c)
  ofGroup : ∀ name ∈ headers.map (·.entry.group),
    groups.get? name = some (freeGroup registry headers name)
  apart : ∀ name ∈ headers.map (·.entry.group), name ∉ classes.map ClassEntry.name

private theorem get?_distribute {targets : List (String × String)} (gs : Groups) (fs : List Function)
    {k : String} (h : k ∉ targets.map Prod.fst) :
    (distribute targets gs fs).get? k = gs.get? k := by
  unfold distribute
  induction targets generalizing gs with
  | nil => rfl
  | cons t targets ih =>
    rw [List.map_cons, List.mem_cons, not_or] at h
    rw [List.foldl_cons, ih _ h.2, Groups.get?_addTo, if_neg h.1]

private theorem keys_distribute (targets : List (String × String)) (gs : Groups) (fs : List Function) :
    (distribute targets gs fs).keys = gs.keys := by
  unfold distribute
  induction targets generalizing gs with
  | nil => rfl
  | cons t targets ih => rw [List.foldl_cons, ih, Groups.keys_addTo]

def targetsOf (classes : List ClassEntry) : List (String × String) :=
  classes.map fun c => (c.name, c.target)

private theorem names_targetsOf (classes : List ClassEntry) :
    (targetsOf classes).map Prod.fst = classes.map ClassEntry.name := by
  rw [targetsOf, List.map_map]
  rfl

private theorem get?_distribute_class {classes : List ClassEntry} (gs : Groups) (fs : List Function)
    (nodup : (classes.map ClassEntry.name).Nodup) {c : ClassEntry} (hc : c ∈ classes) :
    (distribute (targetsOf classes) gs fs).get? c.name =
      (gs.get? c.name).map (·.addAll (some c.target) (fs.filter (·.isOf (some c.target)))) := by
  induction classes generalizing gs with
  | nil => contradiction
  | cons d classes ih =>
    obtain ⟨fresh, nodup⟩ := List.nodup_cons.mp nodup
    have step : distribute (targetsOf (d :: classes)) gs fs = distribute (targetsOf classes)
        (gs.addTo d.name (some d.target) (fs.filter (·.isOf (some d.target)))) fs := rfl
    rw [step]
    rcases List.mem_cons.mp hc with rfl | hc
    · rw [get?_distribute _ _ (names_targetsOf classes ▸ fresh), Groups.get?_addTo, if_pos rfl]
    · have hne : c.name ≠ d.name := fun h => fresh (h ▸ List.mem_map_of_mem hc)
      rw [ih _ nodup hc, Groups.get?_addTo, if_neg hne]

namespace Collected
variable {registry : Registry} {classes : List ClassEntry} {headers : List LoadedHeader}
  {groups : Groups}

/-- A name is known if it is that of a class or of a group in use. -/
theorem mem_keys (inv : Collected registry classes headers groups) {name : String}
    (apart : name ∉ classes.map ClassEntry.name) :
    name ∈ groups.keys ↔ name ∈ headers.map (·.entry.group) := by
  rw [inv.keys, List.mem_append, List.mem_eraseDups]
  exact or_iff_right apart

/-- The group of a name that is no class, whether it is in use or not. -/
theorem getOrFree (inv : Collected registry classes headers groups) {name : String}
    (apart : name ∉ classes.map ClassEntry.name) :
    groups.getOrFree name = freeGroup registry headers name := by
  by_cases used : name ∈ headers.map (·.entry.group)
  · rw [Groups.getOrFree, inv.ofGroup name used, Option.getD_some]
  · have absent : groups.get? name = none :=
      Table.get?_eq_none_iff.mpr fun h => used ((inv.mem_keys apart).mp h)
    have none : naming headers name = [] := by
      refine List.filter_eq_nil_iff.mpr fun h hh hname => used ?_
      exact List.mem_map.mpr ⟨h, hh, of_decide_eq_true hname⟩
    rw [Groups.getOrFree, absent, freeGroup, none]
    rfl

/-- Collecting one more header keeps the groups as they have to be. -/
theorem header (inv : Collected registry classes headers groups)
    (nodup : (classes.map ClassEntry.name).Nodup) (h : LoadedHeader)
    (apart : h.entry.group ∉ classes.map ClassEntry.name) :
    Collected registry classes (headers ++ [h])
      (collectHeader registry (targetsOf classes) groups h) := by
  have outside {k : String} (hk : k ∉ classes.map ClassEntry.name) (fs : List Function) :
      (distribute (targetsOf classes) groups fs).get? k = groups.get? k :=
    get?_distribute groups fs (names_targetsOf classes ▸ hk)
  constructor
  · rw [collectHeader, Groups.addFree, Table.keys_upsert, keys_distribute, List.map_append,
      List.map_singleton, eraseDups_concat]
    by_cases used : h.entry.group ∈ headers.map (·.entry.group)
    · rw [if_pos ((inv.mem_keys apart).mpr used), if_pos used, inv.keys]
    · rw [if_neg (mt (inv.mem_keys apart).mp used), if_neg used, inv.keys, List.append_assoc]
  · intro c hc
    have hne : c.name ≠ h.entry.group := fun he => apart (he ▸ List.mem_map_of_mem hc)
    rw [collectHeader, Groups.get?_addFree, if_neg hne, get?_distribute_class _ _ nodup hc,
      inv.ofClass c hc, classGroup, classGroup, claimed_append, claimed_singleton,
      Group.addAll_append, Option.map_some]
  · intro name hname
    rw [collectHeader, Groups.get?_addFree]
    split
    · rename_i same
      have here : naming [h] name = [h] := by simp [naming, same]
      have old : (distribute (targetsOf classes) groups (h.functions registry)).getOrFree
          h.entry.group = freeGroup registry headers name := by
        rw [Groups.getOrFree, outside apart, ← Groups.getOrFree, inv.getOrFree apart, same]
      rw [old, freeGroup, freeGroup, naming_append, here, claimed_append, claimed_singleton,
        Group.addAll_append]
    · rename_i other
      have there : naming [h] name = [] := by simp [naming, Ne.symm other]
      have used : name ∈ headers.map (·.entry.group) := by simpa [other] using hname
      rw [outside (inv.apart name used), inv.ofGroup name used, freeGroup, freeGroup,
        naming_append, there, List.append_nil]
  · intro name hname
    rw [List.map_append, List.mem_append] at hname
    rcases hname with old | new
    · exact inv.apart name old
    · obtain rfl : name = h.entry.group := by simpa using new
      exact apart

private theorem addClass (inv : Collected registry classes [] groups) {c : ClassEntry}
    (fresh : c.name ∉ classes.map ClassEntry.name) :
    Collected registry (classes ++ [c]) [] (groups.put (.ofKind c.name (.wrapper c.type))) := by
  have absent : c.name ∉ groups.keys := fun h => by
    have h := (inv.mem_keys fresh).mp h
    contradiction
  constructor
  · refine (Table.keys_upsert groups c.name _).trans ?_
    rw [if_neg absent, inv.keys]
    simp
  · intro d hd
    have get : (groups.put (.ofKind c.name (.wrapper c.type))).get? d.name =
        if d.name = c.name then some (.ofKind c.name (.wrapper c.type))
        else groups.get? d.name := Table.get?_insert groups c.name d.name _
    rw [get]
    rcases List.mem_append.mp hd with hd | hd
    · have hne : d.name ≠ c.name := fun h => fresh (h ▸ List.mem_map_of_mem hd)
      rw [if_neg hne, inv.ofClass d hd]
    · obtain rfl : d = c := by simpa using hd
      rw [if_pos rfl]
      rfl
  · intro name hname
    contradiction
  · intro name hname
    contradiction

/-- Behind all headers the groups are as they have to be. -/
theorem headers_all (inv : Collected registry classes headers groups)
    (nodup : (classes.map ClassEntry.name).Nodup) (rest : List LoadedHeader)
    (apart : ∀ h ∈ rest, h.entry.group ∉ classes.map ClassEntry.name) :
    Collected registry classes (headers ++ rest)
      (rest.foldl (collectHeader registry (targetsOf classes)) groups) := by
  induction rest generalizing headers groups with
  | nil => rwa [List.append_nil]
  | cons h rest ih =>
    rw [List.append_cons]
    exact ih (inv.header nodup h (apart h List.mem_cons_self)) fun h' hh' =>
      apart h' (List.mem_cons_of_mem _ hh')

/-- The groups stand in their order. -/
theorem entries (inv : Collected registry classes headers groups) :
    groups.entries = classes.map (fun c => (c.name, classGroup registry headers c)) ++
      (headers.map (·.entry.group)).eraseDups.map fun name =>
        (name, freeGroup registry headers name) := by
  refine Table.entries_eq ?_ fun e he => ?_
  · rw [inv.keys, List.map_append, List.map_map, List.map_map]
    exact congrArg _ (List.map_id _).symm
  · rcases List.mem_append.mp he with he | he
    · obtain ⟨c, hc, rfl⟩ := List.mem_map.mp he
      exact inv.ofClass c hc
    · obtain ⟨name, hname, rfl⟩ := List.mem_map.mp he
      exact inv.ofGroup name (List.mem_eraseDups.mp hname)

end Collected

private theorem collected_ofClasses (registry : Registry) {classes : List ClassEntry}
    (nodup : (classes.map ClassEntry.name).Nodup) :
    Collected registry classes [] (Groups.ofClasses (classes.map fun c => (c.name, c.type))) := by
  have all (before rest : List ClassEntry)
      (inv : Collected registry before []
        (Groups.ofClasses (before.map fun c => (c.name, c.type))))
      (nodup : ((before ++ rest).map ClassEntry.name).Nodup) :
      Collected registry (before ++ rest) []
        (Groups.ofClasses ((before ++ rest).map fun c => (c.name, c.type))) := by
    induction rest generalizing before with
    | nil => rwa [List.append_nil]
    | cons c rest ih =>
      have fresh : c.name ∉ before.map ClassEntry.name := by
        rw [List.map_append, List.nodup_append] at nodup
        exact fun h => nodup.2.2 _ h _ List.mem_cons_self rfl
      rw [List.append_cons] at nodup ⊢
      refine ih _ ?_ nodup
      rw [List.map_append, List.map_singleton, Groups.ofClasses_concat]
      exact inv.addClass fresh
  exact all [] classes ⟨rfl, by simp, by simp, by simp⟩ nodup

private theorem targets_ofClasses {classes : List ClassEntry}
    (nodup : (classes.map ClassEntry.name).Nodup) :
    targets (Groups.ofClasses (classes.map fun c => (c.name, c.type))) = targetsOf classes := by
  have entries := (collected_ofClasses ∅ nodup).entries
  have each (c : ClassEntry) : (classGroup ∅ [] c).target? = some c.target := by
    simp [Group.target?, Group.type?, ClassEntry.target]
  rw [targets, Table.values, entries, targetsOf]
  simp [each, List.filterMap_map, Function.comp_def, List.filterMap_eq_map']

/-- A run over a consistent model whose headers are loaded. -/
structure Ready (r : Run) : Prop where
  consistent : r.model.violation? = none
  loaded : r.headers.map LoadedHeader.entry = r.model.headers

namespace Ready
variable {r : Run}

theorem nodup (ready : r.Ready) : (r.model.classes.map ClassEntry.name).Nodup :=
  Model.nodup_class_names ready.consistent

theorem targets (ready : r.Ready) :
    targets (Groups.ofClasses (r.model.classes.map fun c => (c.name, c.type))) =
      targetsOf r.model.classes :=
  targets_ofClasses ready.nodup

/-- Collection leaves the groups as they have to be. -/
theorem collected (ready : r.Ready) :
    Collected r.registry r.model.classes r.headers r.collect.groups := by
  have all := (collected_ofClasses r.registry ready.nodup).headers_all ready.nodup r.headers
    fun h hh => Model.group_ne_class ready.consistent <| by
      rw [← ready.loaded]
      exact List.mem_map_of_mem hh
  rw [List.nil_append] at all
  rw [Run.collect, ready.targets]
  exact all

end Ready

end Run
end HeaderWrap
