import Mathlib.Data.List.Forall2
import HeaderWrap.Proofs.Function.Rendering
import HeaderWrap.Proofs.Run.Distribution

/-! What the registry has no say in. Which functions a class or a group holds is settled by the
headers and the model alone, and a function comes out the same under two registries that agree on
the types that it names. -/
namespace HeaderWrap

def Declaration.type? : Declaration → Option String
  | .resolved base .. => some base
  | .verbatim _ => none

def Function.types (f : Function) : List String :=
  (f.result :: f.params).filterMap Declaration.type?

namespace Header

private theorem type?_resolve (registry : Registry) (position : Position) (fragment : String) :
    (resolve registry position fragment).type? = (parts? position fragment).map Parts.base := by
  rw [resolve]
  cases parts? position fragment with
  | none => rfl
  | some p => rfl

private theorem resolve_congr {registry registry' : Registry} {position : Position} {fragment : String}
    (agree : ∀ type, (resolve registry position fragment).type? = some type →
      registry.get? type = registry'.get? type) :
    resolve registry position fragment = resolve registry' position fragment := by
  simp only [type?_resolve, Option.map_eq_some_iff] at agree
  rw [resolve, resolve]
  cases h : parts? position fragment with
  | none => rfl
  | some p =>
    have same := agree p.base ⟨p, h, rfl⟩
    simp only [wrapperType?, same]

end Header

def Signature.entityPrefix? (s : Signature) : Option String :=
  (s.params.head?.bind fun p => (Header.parts? .parameter p).map Header.Parts.base).bind
    Naming.entityPrefix?

namespace Function

private theorem entityPrefix?_eq_bind (f : Function) :
    f.entityPrefix? = (f.params.head?.bind Declaration.type?).bind Naming.entityPrefix? := by
  rw [entityPrefix?]
  cases f.params.head? with
  | none => rfl
  | some p => cases p <;> rfl

@[simp] theorem entityPrefix?_ofSignature (registry : Registry) (s : Signature) :
    (ofSignature registry s).entityPrefix? = s.entityPrefix? := by
  rw [entityPrefix?_eq_bind, Signature.entityPrefix?, ofSignature, List.head?_map]
  cases s.params.head? with
  | none => rfl
  | some p => exact congrArg (·.bind Naming.entityPrefix?) (Header.type?_resolve registry _ p)

section
variable {registry registry' : Registry}

private theorem ofSignature_congr {s : Signature}
    (agree : ∀ type ∈ (ofSignature registry s).types, registry.get? type = registry'.get? type) :
    ofSignature registry s = ofSignature registry' s := by
  have each (d : Declaration)
      (hd : d ∈ (ofSignature registry s).result :: (ofSignature registry s).params) (type : String)
      (own : d.type? = some type) : registry.get? type = registry'.get? type :=
    agree type (List.mem_filterMap.mpr ⟨d, hd, own⟩)
  have result : Header.resolve registry .result s.result =
      Header.resolve registry' .result s.result :=
    Header.resolve_congr (each _ List.mem_cons_self)
  have params : s.params.map (Header.resolve registry .parameter) =
      s.params.map (Header.resolve registry' .parameter) :=
    List.map_congr_left fun p hp => Header.resolve_congr <|
      each _ (List.mem_cons_of_mem _ (List.mem_map_of_mem hp))
  rw [ofSignature, ofSignature, result, params]

private theorem valueArg_congr {p : Declaration}
    (agree : ∀ type, p.type? = some type → registry.get? type = registry'.get? type) :
    valueArg registry p = valueArg registry' p := by
  cases p with
  | resolved base modifier isConst name wrapper? =>
    have same := agree base rfl
    simp only [valueArg, Declaration.baseType, same]
  | verbatim text =>
    have plain (registry : Registry) : valueArg registry (.verbatim text) =
        (Declaration.verbatim text).name := by
      rw [valueArg]
      split
      · rfl
      · rfl
    rw [plain, plain]

private theorem mem_params_of_mem_wrapperParams {f : Function} {p : Declaration}
    (h : p ∈ f.wrapperParams) : p ∈ f.params := by
  have kept := (List.mem_filter.mp h).1
  split at kept
  · exact List.mem_of_mem_drop kept
  · exact kept

private theorem callArgs_congr {f : Function}
    (agree : ∀ type ∈ f.types, registry.get? type = registry'.get? type) (target : Option String)
    (options : Options) : f.callArgs target ⟨registry, options⟩ =
      f.callArgs target ⟨registry', options⟩ := by
  rw [callArgs_eq, callArgs_eq]
  refine congrArg _ (List.map_congr_left fun p hp => valueArg_congr fun type own => ?_)
  have param := List.mem_cons_of_mem f.result (mem_params_of_mem_wrapperParams hp)
  exact agree type (List.mem_filterMap.mpr ⟨p, param, own⟩)

private theorem call_congr {f : Function}
    (agree : ∀ type ∈ f.types, registry.get? type = registry'.get? type)
    (target : Option String) (options : Options) :
    f.call target ⟨registry, options⟩ = f.call target ⟨registry', options⟩ := by
  rw [call, call, callArgs_congr agree]
  cases result : f.result with
  | resolved base modifier isConst name wrapper? =>
    have same : registry.get? base = registry'.get? base := by
      refine agree base (List.mem_filterMap.mpr ⟨f.result, List.mem_cons_self, ?_⟩)
      rw [result, Declaration.type?]
    simp only [Declaration.baseType, same]
  | verbatim text =>
    simp only [Declaration.isWrapped, Declaration.wrapper?, Option.isSome_none,
      Bool.false_eq_true, if_false]
    split
    · split <;> rfl
    · split <;> rfl

/-- The definition, too, depends on the conversions of the function's own types only. -/
theorem definition?_congr {f : Function}
    (agree : ∀ type ∈ f.types, registry.get? type = registry'.get? type)
    (target owner? : Option String) (options : Options) :
    f.definition? target owner? ⟨registry, options⟩ =
      f.definition? target owner? ⟨registry', options⟩ := by
  have statement : f.statement target ⟨registry, options⟩ =
      f.statement target ⟨registry', options⟩ := by
    rw [Function.statement, Function.statement, call_congr agree]
  rw [definition?, definition?, statement]
  rfl

end

end Function

/-- Two functions of one declaration under two registries: they have one name and one prefix, and
all that is rendered of them is the same if the registries agree on their types. -/
structure Function.Twins (registry registry' : Registry) (f f' : Function) : Prop where
  name : f'.name = f.name
  entityPrefix : f'.entityPrefix? = f.entityPrefix?
  same : (∀ type ∈ f.types, registry.get? type = registry'.get? type) →
    f' = f ∧ ∀ target owner? options,
      f'.declaration? target ⟨registry', options⟩ = f.declaration? target ⟨registry, options⟩ ∧
      f'.definition? target owner? ⟨registry', options⟩ =
        f.definition? target owner? ⟨registry, options⟩

theorem Function.Twins.ofSignature {registry registry' : Registry} (s : Signature) :
    Twins registry registry' (.ofSignature registry s) (.ofSignature registry' s) where
  name := rfl
  entityPrefix := by rw [entityPrefix?_ofSignature, entityPrefix?_ofSignature]
  same agree := by
    rw [← ofSignature_congr agree]
    refine ⟨rfl, fun target owner? options => ⟨rfl, ?_⟩⟩
    exact (definition?_congr agree target owner? options).symm

def LoadedHeader.signatures (h : LoadedHeader) : List Signature :=
  (Header.signatures h.text).filter fun s => !h.entry.isExcluded s.name

private theorem LoadedHeader.functions_eq (registry : Registry) (h : LoadedHeader) :
    h.functions registry = h.signatures.map (.ofSignature registry) := by
  rw [LoadedHeader.functions, Function.ofHeader, List.filter_map]
  rfl

namespace Run

def declared (headers : List LoadedHeader) (target : Option String) : List Signature :=
  (headers.flatMap LoadedHeader.signatures).filter (·.entityPrefix? == target)

private theorem flatMap_functions (registry : Registry) (headers : List LoadedHeader) :
    headers.flatMap (·.functions registry) =
      (headers.flatMap LoadedHeader.signatures).map (.ofSignature registry) := by
  simp only [LoadedHeader.functions_eq, List.map_flatMap]

private theorem claimed_eq_map (registry : Registry) (headers : List LoadedHeader)
    (target : Option String) :
    claimed registry headers target = (declared headers target).map (.ofSignature registry) := by
  rw [claimed, flatMap_functions, List.filter_map, declared]
  simp [Function.comp_def, Function.isOf]

private theorem length_unclaimed (r : Run) : r.unclaimed.length =
    ((r.headers.flatMap LoadedHeader.signatures).filter fun s =>
      s.entityPrefix?.any fun p => !(r.model.classes.map ClassEntry.target).contains p).length := by
  rw [unclaimed, functions, flatMap_functions, List.filter_map, List.length_map]
  simp [Function.comp_def]

/-- What collection has to say is the same under any registry. -/
theorem Ready.diagnostics_collect_registry {r : Run} (ready : r.Ready) (registry : Registry) :
    ({ r with registry } : Run).collect.diagnostics = r.collect.diagnostics := by
  have ready' : Ready { r with registry } := ⟨ready.consistent, ready.loaded⟩
  have count : ({ r with registry } : Run).unclaimed.length = r.unclaimed.length := by
    rw [length_unclaimed, length_unclaimed]
  simp only [ready'.diagnostics_collect, ready.diagnostics_collect, count]

/-- The registry has no say in what collection does: under another one, the same classes and groups
hold functions of the same declarations for the same targets, in the same order, and as many belong
to none. Where the two registries agree on the types of a function, it is the same under both, and
so is all that is rendered of it. -/
theorem collect_registry (r : Run) (consistent : r.model.violation? = none)
    (loaded : r.headers.map LoadedHeader.entry = r.model.headers) (registry : Registry) :
    List.Forall₂ (fun e e' => e'.1 = e.1 ∧ e'.2.name = e.2.name ∧ e'.2.kind = e.2.kind ∧
        List.Forall₂ (fun p p' => p'.1 = p.1 ∧ Function.Twins r.registry registry p.2 p'.2)
          e.2.functions e'.2.functions)
      r.collect.groups.entries ({ r with registry } : Run).collect.groups.entries ∧
    ({ r with registry } : Run).collect.diagnostics = r.collect.diagnostics ∧
    ∀ text, List.Forall₂ (Function.Twins r.registry registry)
      (Function.ofHeader r.registry text) (Function.ofHeader registry text) := by
  have ready : r.Ready := ⟨consistent, loaded⟩
  have ready' : Ready { r with registry } := ⟨consistent, loaded⟩
  have held (headers : List LoadedHeader) (target : Option String) :
      List.Forall₂ (fun p p' => p'.1 = p.1 ∧ Function.Twins r.registry registry p.2 p'.2)
        ((claimed r.registry headers target).map (target, ·))
        ((claimed registry headers target).map (target, ·)) := by
    simp only [claimed_eq_map, List.map_map, List.forall₂_map_left_iff,
      List.forall₂_map_right_iff, List.forall₂_same]
    exact fun s _ => ⟨rfl, .ofSignature s⟩
  refine ⟨?_, ready.diagnostics_collect_registry registry, fun text => ?_⟩
  · rw [ready.collected.entries, ready'.collected.entries]
    refine List.rel_append ?_ ?_
    · simp only [List.forall₂_map_left_iff, List.forall₂_map_right_iff, List.forall₂_same]
      intro c _
      simp only [name_classGroup, kind_classGroup, functions_classGroup, true_and]
      exact held _ _
    · simp only [List.forall₂_map_left_iff, List.forall₂_map_right_iff, List.forall₂_same]
      intro name _
      simp only [name_freeGroup, kind_freeGroup, functions_freeGroup, true_and]
      exact held _ _
  · simp only [Function.ofHeader, List.forall₂_map_left_iff, List.forall₂_map_right_iff,
      List.forall₂_same]
    exact fun s _ => .ofSignature s

theorem timers_registry :
    ({ timers with registry := .lvgl } : Run).collect.diagnostics = timers.collect.diagnostics ∧
      Function.ofHeader .lvgl "void lv_tick_inc(lv_tick_t n);" =
        Function.ofHeader timers.registry "void lv_tick_inc(lv_tick_t n);" := by
  obtain ⟨-, reports, twins⟩ :=
    collect_registry timers (by decide +kernel) (by decide +kernel) .lvgl
  have read : Function.ofHeader timers.registry "void lv_tick_inc(lv_tick_t n);" =
      [⟨"lv_tick_inc", .resolved "void" .plain false "" none,
        [.resolved "lv_tick_t" .plain false "n" none]⟩] := by decide +kernel
  have both := twins "void lv_tick_inc(lv_tick_t n);"
  rw [read] at both ⊢
  obtain ⟨f, fs, twin, none, same⟩ := List.forall₂_cons_left_iff.mp both
  obtain rfl := List.forall₂_nil_left_iff.mp none
  exact ⟨reports, by rw [same, (twin.same (by decide +kernel)).1]⟩

end Run
end HeaderWrap
