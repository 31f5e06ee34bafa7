import Mathlib
import HeaderWrap.Run.Complete

/-! What a run has read: all headers and templates of its model, in their order. -/
namespace HeaderWrap

def TemplateEntry.proper (e : TemplateEntry) : TemplateEntry :=
  { e with header? := e.headerPath?, implementation? := e.implementationPath? }

def Template.entry (t : Template) : TemplateEntry where
  name := t.name
  classes := t.classes
  header? := t.header?.map TemplateFile.path
  implementation? := t.implementation?.map TemplateFile.path

namespace Run
variable {m : Type → Type} [Monad m] [LawfulMonad m] (sources : Sources m)

private theorem readHeaders_spec (entries : List HeaderEntry) :
    SatisfiesM (fun r => r.2 = none → r.1.map LoadedHeader.entry = entries)
      (readHeaders sources entries) := by
  induction entries with
  | nil => exact .pure fun _ => rfl
  | cons entry entries ih =>
    refine .bind_pre (.of_true fun text => ?_)
    cases text with
    | error f => exact .pure nofun
    | ok text =>
      refine ih.bind fun (headers, failure?) rest => .pure fun read => ?_
      rw [List.map_cons, rest read]

private theorem readTemplateFile_spec (path? : Option String) :
    SatisfiesM (fun r => ∀ file?, r = .ok file? → file?.map TemplateFile.path = path?)
      (readTemplateFile sources path?) := by
  cases path? with
  | none =>
    refine .pure fun file? read => ?_
    obtain rfl := Except.ok.inj read
    rfl
  | some path =>
    refine .bind_pre (.of_true fun text => .pure fun file? read => ?_)
    cases text with
    | error f => contradiction
    | ok text =>
      obtain rfl := Except.ok.inj read
      rfl

private theorem readTemplate_spec (entry : TemplateEntry) :
    SatisfiesM (fun r => ∀ t, r = .ok t → t.entry = entry.proper) (readTemplate sources entry) := by
  refine (readTemplateFile_spec sources entry.headerPath?).bind fun header? first => ?_
  cases header? with
  | error f => exact .pure nofun
  | ok header? =>
    refine (readTemplateFile_spec sources entry.implementationPath?).bind
      fun implementation? second => .pure fun t read => ?_
    cases implementation? with
    | error f => contradiction
    | ok implementation? =>
      obtain rfl := Except.ok.inj read
      rw [Template.entry, TemplateEntry.proper, first _ rfl, second _ rfl]

private theorem readTemplates_spec (entries : List TemplateEntry) :
    SatisfiesM (fun r => r.2 = none → r.1.map Template.entry = entries.map TemplateEntry.proper)
      (readTemplates sources entries) := by
  induction entries with
  | nil => exact .pure fun _ => rfl
  | cons entry entries ih =>
    refine (readTemplate_spec sources entry).bind fun template first => ?_
    cases template with
    | error f => exact .pure nofun
    | ok template =>
      refine ih.bind fun (templates, failure?) rest => .pure fun read => ?_
      rw [List.map_cons, List.map_cons, first template rfl, rest read]

/-- A run that has read all that its model names, and has done nothing else. -/
structure Loaded (model : Model) (registry : Registry) (r : Run) : Prop where
  ofModel : r.model = model
  withTypes : r.registry = registry.extend model.types.entries
  headers : r.headers.map LoadedHeader.entry = model.headers
  templates : r.templates.map Template.entry = model.templates.map TemplateEntry.proper
  outputs : r.outputs = []
  diagnostics : r.diagnostics = []

/-- Unless something cannot be read, all is read. -/
theorem load_spec (model : Model) (registry : Registry) :
    SatisfiesM (fun x => x.2 = none → Loaded model registry x.1)
      ((start model registry).load sources) := by
  refine (readHeaders_spec sources model.headers).bind fun (headers, failure?) allHeaders => ?_
  cases failure? with
  | some f => exact .pure nofun
  | none =>
    refine (readTemplates_spec sources model.templates).bind
      fun (templates, failure?) allTemplates => .pure fun read => ?_
    exact ⟨rfl, rfl, allHeaders rfl, allTemplates read, rfl, rfl⟩

/-- A complete run collects and renders what it has read. -/
theorem complete_spec (model : Model) (registry : Registry) :
    SatisfiesM (fun result => ∀ r, result = .ok r →
        ∃ r₀, Loaded model registry r₀ ∧ r = r₀.collect.render)
      (complete model registry sources) := by
  refine (load_spec sources model registry).bind fun (r₀, failure?) all => .pure fun r ran => ?_
  cases failure? with
  | some f => contradiction
  | none =>
    obtain rfl := Except.ok.inj ran
    exact ⟨r₀, all rfl, rfl⟩

end Run
end HeaderWrap
