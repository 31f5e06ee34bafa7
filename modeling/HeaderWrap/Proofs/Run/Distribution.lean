import HeaderWrap.Proofs.Run.Collection

/-! Where the functions of a run end up: in the classes that ask for their entity prefix, in the
group of their header, or among those that no class asks for. -/
namespace HeaderWrap.Run

def functions (r : Run) : List Function := r.headers.flatMap (·.functions r.registry)

/-- The functions with an entity prefix that no class asks for. -/
def unclaimed (r : Run) : List Function :=
  r.functions.filter fun f =>
    f.entityPrefix?.any fun p => !(r.model.classes.map ClassEntry.target).contains p

theorem mem_functions {r : Run} {f : Function} :
    f ∈ r.functions ↔ ∃ h ∈ r.headers, f ∈ h.functions r.registry :=
  List.mem_flatMap

private theorem mem_unclaimed {r : Run} {f : Function} :
    f ∈ r.unclaimed ↔ f ∈ r.functions ∧
      ∃ p, f.entityPrefix? = some p ∧ ∀ c ∈ r.model.classes, c.target ≠ p := by
  rw [unclaimed, List.mem_filter]
  refine and_congr_right fun _ => ?_
  cases f.entityPrefix? <;> simp

/-- The functions that some groups hold: all classes together, or all groups of free functions. -/
def held (groups : Groups) (free : Bool) : List Function :=
  ((groups.values.filter (·.isFree == free)).flatMap Group.functions).map Prod.snd

private theorem mem_held {groups : Groups} {free : Bool} {f : Function} :
    f ∈ held groups free ↔
      ∃ g ∈ groups.values, g.isFree = free ∧ ∃ target, (target, f) ∈ g.functions := by
  simp only [held, List.mem_map, List.mem_flatMap, List.mem_filter, beq_iff_eq]
  constructor
  · rintro ⟨⟨target, f⟩, ⟨g, ⟨hg, kind⟩, hf⟩, rfl⟩
    exact ⟨g, hg, kind, target, hf⟩
  · rintro ⟨g, hg, kind, target, hf⟩
    exact ⟨(target, f), ⟨g, ⟨hg, kind⟩, hf⟩, rfl⟩

private theorem countUnclaimed_eq (targets : List String) (count : Int32) (fs : List Function) :
    countUnclaimed targets count fs =
      count + Int32.ofNat (fs.filter (isUnclaimed targets)).length := by
  unfold countUnclaimed
  induction fs generalizing count with
  | nil => exact (Int32.add_zero count).symm
  | cons f fs ih =>
    rw [List.foldl_cons, ih, List.filter_cons]
    split
    · rw [List.length_cons, Int32.ofNat_add, Int32.add_assoc, Int32.add_comm (Int32.ofNat _)]
      rfl
    · rfl

/-- Counting header by header comes to the number of all that are unclaimed, in 32 bits. -/
theorem foldl_countUnclaimed (registry : Registry) (targets : List String) (count : Int32)
    (headers : List LoadedHeader) :
    headers.foldl (fun count h => countUnclaimed targets count (h.functions registry)) count =
      count + Int32.ofNat
        ((headers.flatMap (·.functions registry)).filter (isUnclaimed targets)).length := by
  induction headers generalizing count with
  | nil => exact (Int32.add_zero count).symm
  | cons h headers ih =>
    rw [List.foldl_cons, ih, countUnclaimed_eq, List.flatMap_cons, List.filter_append,
      List.length_append, Int32.ofNat_add, Int32.add_assoc]

namespace Ready
variable {r : Run}

theorem mem_values (ready : r.Ready) {g : Group} :
    g ∈ r.collect.groups.values ↔
      (∃ c ∈ r.model.classes, classGroup r.registry r.headers c = g) ∨
        ∃ h ∈ r.headers, freeGroup r.registry r.headers h.entry.group = g := by
  rw [Table.values, ready.collected.entries, List.map_append, List.mem_append, List.map_map,
    List.map_map]
  refine or_congr List.mem_map ?_
  simp only [List.mem_map, List.mem_eraseDups, Function.comp_apply]
  constructor
  · rintro ⟨_, ⟨h, hh, rfl⟩, rfl⟩
    exact ⟨h, hh, rfl⟩
  · rintro ⟨h, hh, rfl⟩
    exact ⟨_, ⟨h, hh, rfl⟩, rfl⟩

/-- The classes hold the functions whose prefix one of them asks for. -/
theorem mem_held_class (ready : r.Ready) {f : Function} :
    f ∈ held r.collect.groups false ↔
      f ∈ r.functions ∧ ∃ c ∈ r.model.classes, f.entityPrefix? = some c.target := by
  rw [mem_held, mem_functions]
  constructor
  · rintro ⟨g, hg, kind, target, hf⟩
    rcases ready.mem_values.mp hg with ⟨c, hc, rfl⟩ | ⟨h, -, rfl⟩
    · rw [functions_classGroup] at hf
      obtain ⟨f', hf', heq⟩ := List.mem_map.mp hf
      obtain ⟨-, rfl⟩ := Prod.mk.inj heq
      obtain ⟨hf, prefix_eq⟩ := mem_claimed.mp hf'
      exact ⟨hf, c, hc, prefix_eq⟩
    · simp [Group.isFree] at kind
  · rintro ⟨hf, c, hc, prefix_eq⟩
    refine ⟨_, ready.mem_values.mpr (.inl ⟨c, hc, rfl⟩), ?_, some c.target, ?_⟩
    · simp [Group.isFree]
    · rw [functions_classGroup]
      exact List.mem_map_of_mem (mem_claimed.mpr ⟨hf, prefix_eq⟩)

/-- The groups of free functions hold those without a prefix. -/
theorem mem_held_free (ready : r.Ready) {f : Function} :
    f ∈ held r.collect.groups true ↔ f ∈ r.functions ∧ f.entityPrefix? = none := by
  rw [mem_held, mem_functions]
  constructor
  · rintro ⟨g, hg, kind, target, hf⟩
    rcases ready.mem_values.mp hg with ⟨c, -, rfl⟩ | ⟨h, -, rfl⟩
    · simp [Group.isFree] at kind
    · rw [functions_freeGroup] at hf
      obtain ⟨f', hf', heq⟩ := List.mem_map.mp hf
      obtain ⟨-, rfl⟩ := Prod.mk.inj heq
      obtain ⟨⟨h', hh', hf⟩, prefix_eq⟩ := mem_claimed.mp hf'
      exact ⟨⟨h', (List.mem_filter.mp hh').1, hf⟩, prefix_eq⟩
  · rintro ⟨⟨h, hh, hf⟩, prefix_eq⟩
    refine ⟨_, ready.mem_values.mpr (.inr ⟨h, hh, rfl⟩), ?_, none, ?_⟩
    · simp [Group.isFree]
    · have here : h ∈ naming r.headers h.entry.group := List.mem_filter.mpr ⟨hh, by simp⟩
      rw [functions_freeGroup]
      exact List.mem_map_of_mem (mem_claimed.mpr ⟨⟨h, here, hf⟩, prefix_eq⟩)

/-- What collection has to say: how many functions no class asks for, counted in 32 bits, if the count
comes out positive. -/
theorem diagnostics_collect (ready : r.Ready) :
    r.collect.diagnostics = r.diagnostics ++
      if 0 < Int32.ofNat r.unclaimed.length then
        [⟨.info, Phase.collect.name,
          .unclaimed (Int32.ofNat r.unclaimed.length).toNatClampNeg, none⟩]
      else [] := by
  have same : (r.headers.flatMap (·.functions r.registry)).filter
      (isUnclaimed ((targetsOf r.model.classes).map Prod.snd)) = r.unclaimed := by
    rw [targetsOf, List.map_map]
    rfl
  simp only [Run.collect, ready.targets, foldl_countUnclaimed, same, Int32.zero_add]

/-- A number that fits is reported as it is. -/
theorem diagnostics_collect_of_lt (ready : r.Ready) (few : r.unclaimed.length < 2147483648) :
    r.collect.diagnostics = r.diagnostics ++
      if r.unclaimed = [] then []
      else [⟨.info, Phase.collect.name, .unclaimed r.unclaimed.length, none⟩] := by
  have count : (Int32.ofNat r.unclaimed.length).toNatClampNeg = r.unclaimed.length :=
    Int32.toNatClampNeg_ofNat_of_lt few
  rw [ready.diagnostics_collect]
  simp only [← Int32.toNatClampNeg_pos_iff, count, List.length_pos_iff, ne_eq, ite_not]

end Ready

/-- Collection loses nothing and keeps the order. The classes of the model come first, each with the
functions that have its target, and then the groups of free functions, each with those of its headers
that have no prefix; what has a prefix that no class asks for is counted, and the number reported as
long as 31 bits hold it. So every function is in a class or more, in a group, or counted, and only in
one of these ways. -/
theorem collect_exact (r : Run) (consistent : r.model.violation? = none)
    (loaded : r.headers.map LoadedHeader.entry = r.model.headers) :
    r.collect.groups.entries.map (fun e => (e.1, e.2.name, e.2.kind, e.2.functions)) =
        r.model.classes.map (fun c => (c.name, c.name, .wrapper c.type,
          (claimed r.registry r.headers (some c.target)).map (some c.target, ·))) ++
        r.model.freeGroups.map (fun name => (name, name, .free,
          (claimed r.registry (naming r.headers name) none).map (none, ·))) ∧
      (r.unclaimed.length < 2147483648 → r.collect.diagnostics = r.diagnostics ++
        if r.unclaimed = [] then []
        else [⟨.info, "collect", .unclaimed r.unclaimed.length, none⟩]) ∧
      ∀ f ∈ r.functions,
        f ∈ held r.collect.groups false ∧ f ∉ held r.collect.groups true ∧ f ∉ r.unclaimed ∨
        f ∉ held r.collect.groups false ∧ f ∈ held r.collect.groups true ∧ f ∉ r.unclaimed ∨
        f ∉ held r.collect.groups false ∧ f ∉ held r.collect.groups true ∧ f ∈ r.unclaimed := by
  have ready : r.Ready := ⟨consistent, loaded⟩
  refine ⟨?_, ready.diagnostics_collect_of_lt, fun f hf => ?_⟩
  · have groups : r.model.freeGroups = (r.headers.map (·.entry.group)).eraseDups := by
      rw [Model.freeGroups, ← loaded, List.map_map]
      rfl
    rw [ready.collected.entries, groups, List.map_append, List.map_map, List.map_map]
    simp [Function.comp_def]
  · rw [ready.mem_held_class, ready.mem_held_free, mem_unclaimed]
    by_cases asked : ∃ c ∈ r.model.classes, f.entityPrefix? = some c.target
    · refine .inl ⟨⟨hf, asked⟩, ?_, ?_⟩
      · rintro ⟨-, free⟩
        obtain ⟨c, -, own⟩ := asked
        rw [free] at own
        contradiction
      · rintro ⟨-, p, own, others⟩
        obtain ⟨c, hc, target⟩ := asked
        exact others c hc (Option.some.inj (target.symm.trans own))
    · have unasked : ¬ (f ∈ r.functions ∧ ∃ c ∈ r.model.classes, f.entityPrefix? = some c.target) :=
        fun h => asked h.2
      cases own : f.entityPrefix? with
      | none => exact .inr (.inl ⟨own ▸ unasked, ⟨hf, rfl⟩, by simp⟩)
      | some p =>
        refine .inr (.inr ⟨own ▸ unasked, by simp, hf, p, rfl, fun c hc target => asked ?_⟩)
        exact ⟨c, hc, by rw [own, target]⟩

def reading (model : Model) (registry : Registry) (texts : List String) : Run :=
  { start model registry with headers := List.zipWith LoadedHeader.mk model.headers texts }

def single (c : ClassEntry) (text : String) : Run :=
  reading { Model.empty with classes := [c], headers := [⟨"all.h", "misc", []⟩] } ∅ [text]

def timers : Run :=
  reading
    { Model.empty with
      classes := [⟨"Timer", "lv_timer_t"⟩]
      headers := [⟨"timer.h", "misc", ["lv_timer_del"]⟩, ⟨"tick.h", "misc", []⟩] }
    ∅
    ["void lv_timer_del(lv_timer_t * t);\nvoid lv_timer_run(lv_timer_t * t);\nvoid lv_init(void);",
     "void lv_tick_inc(lv_tick_t n);\nvoid lv_timer_stop(lv_timer_t * t);\nvoid lv_free(void * p);"]

theorem timers_collect :
    timers.collect.groups.entries.map
        (fun e => (e.1, e.2.functions.map fun f => (f.1, f.2.name))) =
        [("Timer", [(some "lv_timer_", "lv_timer_run"), (some "lv_timer_", "lv_timer_stop")]),
          ("misc", [(none, "lv_init"), (none, "lv_free")])] ∧
      timers.unclaimed.length < 2147483648 ∧
      timers.collect.diagnostics = [⟨.info, "collect", .unclaimed 1, none⟩] := by
  obtain ⟨entries, report, -⟩ := collect_exact timers (by decide +kernel) (by decide +kernel)
  have all := congrArg (List.map fun e => (e.1, e.2.2.2.map fun f => (f.1, f.2.name))) entries
  rw [List.map_map] at all
  have one : timers.unclaimed.length = 1 := by decide +kernel
  have few : timers.unclaimed.length < 2147483648 := by omega
  have some : timers.unclaimed ≠ [] := List.ne_nil_of_length_pos (by omega)
  refine ⟨all.trans (by decide +kernel), few, ?_⟩
  rw [report few, if_neg some, one]
  rfl

def shared : Run :=
  reading
    { Model.empty with
      classes := [⟨"Timer", "lv_timer_t"⟩, ⟨"Config", "lv_timer_cfg"⟩]
      headers := [⟨"all.h", "misc", []⟩] }
    ∅ ["void lv_timer_run(lv_timer_t * t);"]

/-- A run over one header, listed `n` times, with a function that no class asks for. -/
def crowded (n : Nat) : Run :=
  reading { Model.empty with headers := List.replicate n ⟨"all.h", "misc", []⟩ } ∅
    (List.replicate n "void lv_timer_run(lv_timer_t * t);")

private theorem headers_crowded (n : Nat) : (crowded n).headers =
    List.replicate n ⟨⟨"all.h", "misc", []⟩, "void lv_timer_run(lv_timer_t * t);"⟩ := by
  rw [crowded, reading, List.zipWith_replicate, Nat.min_self]

private theorem ready_crowded (n : Nat) : (crowded n).Ready where
  consistent := by
    refine Model.violation?_eq_none_iff.mpr ⟨rfl, fun h hh => ?_, nofun, nofun⟩
    obtain rfl := List.eq_of_mem_replicate hh
    have name : Naming.fault? "misc" = none := by decide +kernel
    simp [Model.headerViolation?, Model.nameViolation?, name, Model.class?, crowded, reading, start,
      Model.empty]
  loaded := by
    rw [headers_crowded, List.map_replicate]
    rfl

private theorem length_unclaimed_crowded (n : Nat) : (crowded n).unclaimed.length = n := by
  have one : ((LoadedHeader.functions ∅
      ⟨⟨"all.h", "misc", []⟩, "void lv_timer_run(lv_timer_t * t);"⟩).filter fun f =>
        f.entityPrefix?.any fun p => !([] : List String).contains p).length = 1 := by
    decide +kernel
  have each : (crowded n).unclaimed.length = (List.replicate n 1).sum := by
    rw [unclaimed, functions, headers_crowded, List.filter_flatMap, List.length_flatMap,
      List.map_replicate]
    exact congrArg (fun k => (List.replicate n k).sum) one
  rw [each, List.sum_replicate_nat, Nat.mul_one]

/-- A function goes to each of two classes with one target. The number of 2147483648 functions that
no class asks for is not reported, since it is negative in 32 bits. -/
theorem collect_shares_and_wraps :
    (shared.model.violation? = none ∧
      shared.headers.map LoadedHeader.entry = shared.model.headers ∧
      shared.collect.groups.entries.map (fun e => (e.1, e.2.functions.map (·.2.name))) =
        [("Timer", ["lv_timer_run"]), ("Config", ["lv_timer_run"]), ("misc", [])]) ∧
    (crowded 2147483648).model.violation? = none ∧
      (crowded 2147483648).headers.map LoadedHeader.entry = (crowded 2147483648).model.headers ∧
      (crowded 2147483648).unclaimed.length = 2147483648 ∧
      (crowded 2147483648).collect.diagnostics = [] := by
  have ready := ready_crowded 2147483648
  have count := length_unclaimed_crowded 2147483648
  refine ⟨by decide +kernel, ready.consistent, ready.loaded, count, ?_⟩
  rw [ready.diagnostics_collect, count, if_neg (by decide)]
  rfl

end HeaderWrap.Run
