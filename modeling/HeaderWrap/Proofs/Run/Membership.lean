import HeaderWrap.Proofs.Naming.Prefix
import HeaderWrap.Proofs.Run.Distribution

/-! Which functions a class receives on account of the type of their first parameter, and which
types the wrapped handle is passed for. -/
namespace HeaderWrap.Run

def heldBy (groups : Groups) (name : String) : List Function :=
  match groups.get? name with
  | some g => g.functions.map Prod.snd
  | none => []

/-- A class holds the functions with its target. -/
theorem Ready.mem_heldBy {r : Run} (ready : r.Ready) {c : ClassEntry} (hc : c ∈ r.model.classes)
    {f : Function} :
    f ∈ heldBy r.collect.groups c.name ↔
      f ∈ r.functions ∧ f.entityPrefix? = some c.target := by
  rw [heldBy, ready.collected.ofClass c hc]
  simp only [functions_classGroup, List.map_map, Function.comp_def, List.map_id']
  rw [mem_claimed, mem_functions]

private theorem entityPrefix?_of_first {f : Function} {p : Declaration} (first : f.params.head? = some p)
    (resolved : p.isResolved) : f.entityPrefix? = Naming.entityPrefix? p.baseType := by
  simp [Function.entityPrefix?, first, resolved]

private theorem target_eq {c : ClassEntry} {p : String}
    (h : Naming.entityPrefix? c.type = some p) : c.target = p := by
  rw [ClassEntry.target, h, Option.getD_some]

private theorem entityPrefix?_of_target {c : ClassEntry} {type : String}
    (h : Naming.entityPrefix? type = some c.target) :
    Naming.entityPrefix? c.type = some c.target := by
  cases own : Naming.entityPrefix? c.type with
  | some p => rw [target_eq own]
  | none =>
    have whole : c.target = c.type := by rw [ClassEntry.target, own, Option.getD_none]
    have stable := Naming.entityPrefix?_entityPrefix? h
    rw [whole, own] at stable
    contradiction

/-- A class receives the functions of its own type just if the type has an entity prefix. -/
theorem own_type_iff (r : Run) (consistent : r.model.violation? = none)
    (loaded : r.headers.map LoadedHeader.entry = r.model.headers) {c : ClassEntry}
    (hc : c ∈ r.model.classes) {h : LoadedHeader} (hh : h ∈ r.headers) {f : Function}
    (hf : f ∈ h.functions r.registry) {p : Declaration} (first : f.params.head? = some p)
    (resolved : p.isResolved) (own : p.baseType = c.type) :
    f ∈ heldBy r.collect.groups c.name ∧ f ∉ held r.collect.groups true ↔
      (Naming.entityPrefix? c.type).isSome := by
  have ready : r.Ready := ⟨consistent, loaded⟩
  have read : f ∈ r.functions := mem_functions.mpr ⟨h, hh, hf⟩
  have same : f.entityPrefix? = Naming.entityPrefix? c.type :=
    own ▸ entityPrefix?_of_first first resolved
  rw [ready.mem_heldBy hc, ready.mem_held_free, same]
  constructor
  · rintro ⟨⟨-, target⟩, -⟩
    rw [target, Option.isSome_some]
  · intro some
    obtain ⟨q, hq⟩ := Option.isSome_iff_exists.mp some
    rw [hq, target_eq hq]
    exact ⟨⟨read, rfl⟩, by simp⟩

def setter (name type param : String) : Function :=
  ⟨name, .resolved "void" .plain false "" none, [.resolved type .pointer false param none]⟩

theorem own_type_timer :
    let r := single ⟨"Timer", "lv_timer_t"⟩ "void lv_timer_run(lv_timer_t * t);"
    setter "lv_timer_run" "lv_timer_t" "t" ∈ heldBy r.collect.groups "Timer" ∧
      setter "lv_timer_run" "lv_timer_t" "t" ∉ held r.collect.groups true :=
  (own_type_iff (single ⟨"Timer", "lv_timer_t"⟩ "void lv_timer_run(lv_timer_t * t);")
    (c := ⟨"Timer", "lv_timer_t"⟩) (by decide +kernel) (by decide +kernel) (by decide +kernel)
    (h := ⟨⟨"all.h", "misc", []⟩, "void lv_timer_run(lv_timer_t * t);"⟩) (by decide +kernel)
    (f := setter "lv_timer_run" "lv_timer_t" "t") (by decide +kernel) rfl rfl rfl).mpr
    (by decide +kernel)

/-- A function of a type without a prefix is free, and its class stays empty. -/
theorem odd_type_unheld :
    let r := single ⟨"Odd", "odd"⟩ "void odd_run(odd * o);"
    r.model.violation? = none ∧ r.headers.map LoadedHeader.entry = r.model.headers ∧
      setter "odd_run" "odd" "o" ∈ r.functions ∧
      setter "odd_run" "odd" "o" ∉ heldBy r.collect.groups "Odd" ∧
      setter "odd_run" "odd" "o" ∈ held r.collect.groups true := by
  decide +kernel

/-- The handle is passed for parameters whose type has the entity prefix of the wrapped type: the
two types are the same up to what follows the prefix, which begins no other segment. -/
theorem handle_type (r : Run) (consistent : r.model.violation? = none)
    (loaded : r.headers.map LoadedHeader.entry = r.model.headers) {c : ClassEntry}
    (hc : c ∈ r.model.classes) {f : Function} (hf : f ∈ heldBy r.collect.groups c.name)
    (member : f.isMember) :
    ∃ p rest, f.params = p :: rest ∧ p.isResolved ∧
      (∃ q a b, p.baseType = q ++ a ∧ c.type = q ++ b ∧
        Naming.entityPrefix? p.baseType = some q ∧ Naming.entityPrefix? c.type = some q ∧
        Naming.entityPrefix? a = none ∧ Naming.entityPrefix? b = none ∧
        q.toList <+: f.name.toList) ∧
      f.wrapperParams = rest.filter (!·.isVoid) ∧
      ∀ rendering : Rendering, f.callArgs (some c.target) rendering =
        f.handleArg p (some c.target) rendering.options ::
          f.wrapperParams.map (Function.valueArg rendering.registry) := by
  have ready : r.Ready := ⟨consistent, loaded⟩
  obtain ⟨-, target⟩ := (ready.mem_heldBy hc).mp hf
  cases params : f.params with
  | nil => simp [Function.entityPrefix?, params] at target
  | cons p rest =>
    have first : f.params.head? = some p := by rw [params, List.head?_cons]
    have resolved : p.isResolved := by
      refine Decidable.byContradiction fun unresolved => ?_
      simp [Function.entityPrefix?, first, unresolved] at target
    have type : Naming.entityPrefix? p.baseType = some c.target :=
      entityPrefix?_of_first first resolved ▸ target
    have own := entityPrefix?_of_target type
    obtain ⟨a, ha, none_a⟩ := Naming.entityPrefix?_rest type
    obtain ⟨b, hb, none_b⟩ := Naming.entityPrefix?_rest own
    have name : c.target.toList <+: f.name.toList := by
      simpa [Function.isMember, target] using member
    refine ⟨p, rest, rfl, resolved, ⟨c.target, a, b, ha, hb, type, own, none_a, none_b, name⟩, ?_,
      fun rendering => ?_⟩
    · simp [Function.wrapperParams, member, params]
    · simp [Function.callArgs, Function.callArgs.values, Function.wrapperParams, member, params]

theorem handle_type_timer :
    let f := setter "lv_timer_set" "lv_timer_cfg" "cfg"
    (∃ q a b, "lv_timer_cfg" = q ++ a ∧ "lv_timer_t" = q ++ b ∧
      Naming.entityPrefix? a = none ∧ Naming.entityPrefix? b = none ∧
      q.toList <+: f.name.toList) ∧ f.wrapperParams = [] := by
  obtain ⟨p, rest, params, -, ⟨q, a, b, ha, hb, -, -, none_a, none_b, name⟩, others, -⟩ :=
    handle_type (single ⟨"Timer", "lv_timer_t"⟩ "void lv_timer_set(lv_timer_cfg * cfg);")
      (c := ⟨"Timer", "lv_timer_t"⟩) (by decide +kernel) (by decide +kernel) (by decide +kernel)
      (f := setter "lv_timer_set" "lv_timer_cfg" "cfg") (by decide +kernel) (by decide +kernel)
  obtain ⟨rfl, rfl⟩ := List.cons.inj params
  exact ⟨⟨q, a, b, ha, hb, none_a, none_b, name⟩, others⟩

/-- Two types with one prefix: the handle of the one is passed for the other. -/
theorem handle_of_other_type :
    let r := single ⟨"Timer", "lv_timer_t"⟩ "void lv_timer_set(lv_timer_cfg * cfg);"
    let f := setter "lv_timer_set" "lv_timer_cfg" "cfg"
    r.model.violation? = none ∧ r.headers.map LoadedHeader.entry = r.model.headers ∧
      f ∈ heldBy r.collect.groups "Timer" ∧ f.isMember ∧
      f.params.map Declaration.baseType = ["lv_timer_cfg"] ∧
      f.callArgs (some "lv_timer_") r.rendering = [r.model.options.selfArg] := by
  decide +kernel

end HeaderWrap.Run
