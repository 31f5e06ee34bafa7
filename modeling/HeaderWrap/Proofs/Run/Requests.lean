import HeaderWrap.Proofs.Run.Placement

/-! What the files of a template receive: the classes that it lists and the free functions of its
own name, and nothing else, unless it bears the name of a class that it does not list. -/
namespace HeaderWrap

namespace Template

private theorem mem_slots {t : Template} {slot : String} :
    slot ∈ t.slots ↔ slot ∈ t.classes ∨ slot = t.name := by
  by_cases own : t.name ∈ t.classes
  · have listed : slot = t.name → slot ∈ t.classes := fun h => h ▸ own
    simpa [slots, own] using listed
  · simp [slots, own]

private theorem mem_contents {t : Template} {groups : Groups} {r : Rendering} {kind : FileKind}
    {p : String × String} :
    p ∈ t.contents groups r kind ↔
      ∃ slot ∈ t.slots, ∃ g, groups.get? slot = some g ∧ p = (g.name, g.textFor r kind) := by
  simp only [contents, List.mem_map, List.mem_filterMap]
  constructor
  · rintro ⟨g, ⟨slot, hs, hg⟩, rfl⟩
    exact ⟨slot, hs, g, hg, rfl⟩
  · rintro ⟨slot, hs, g, hg, rfl⟩
    exact ⟨g, ⟨slot, hs, hg⟩, rfl⟩

end Template

namespace Run

def rendered (r : Run) (t : Template) (kind : FileKind) (file : TemplateFile) : RenderedFile :=
  ⟨t, kind, file.path, file.text.fill (t.contents r.groups r.rendering kind)⟩

def Reports (r : Run) (t : Template) (kind : FileKind) (file : TemplateFile) (token : String) :
    Prop :=
  ∃ d ∈ r.fileDiagnostics (r.rendered t kind file), d.message = .missingToken t.name token

/-- A token is reported if it is missing and functions are lost with it. -/
theorem reports_iff {r : Run} {t : Template} {kind : FileKind} {file : TemplateFile}
    {token : String} :
    r.Reports t kind file token ↔
      token ∈ (r.rendered t kind file).filled.missing ∧ r.holdsFunctions token := by
  simp only [Reports, fileDiagnostics, List.mem_append, List.mem_map, List.mem_filter]
  constructor
  · rintro ⟨_, ⟨lost, missing, rfl⟩ | ⟨left, _, rfl⟩, message⟩
    · obtain ⟨-, rfl⟩ := Diagnostic.Message.missingToken.inj message
      exact missing
    · contradiction
  · intro missing
    exact ⟨_, .inl ⟨token, missing, rfl⟩, rfl⟩

/-- A group that a template asks for: a wrapper class among its classes, or the free functions of
its own name. -/
def Asks (r : Run) (t : Template) (g : Group) : Prop :=
  r.groups.get? g.name = some g ∧
    (g.isFree = false ∧ g.name ∈ t.classes ∨ g.isFree ∧ g.name = t.name)

/-- A file receives what its template asks for, each text for the token of its group, and no wrapper
class that is not listed comes into it or is missed there. -/
structure ReceivesAsked (r : Run) (t : Template) (kind : FileKind) (file : TemplateFile) :
    Prop where
  given : ∀ p ∈ t.contents r.groups r.rendering kind,
    ∃ g, r.Asks t g ∧ p = (g.name, g.textFor r.rendering kind)
  reported : ∀ token, r.Reports t kind file token → ∃ g, r.Asks t g ∧ g.name = token
  unlisted : ∀ g, r.groups.get? g.name = some g → g.isFree = false → g.name ∉ t.classes →
    g.name ∉ (t.contents r.groups r.rendering kind).map Prod.fst ∧ ¬ r.Reports t kind file g.name

private theorem ReceivesAsked.of_given {r : Run} {t : Template} {kind : FileKind} {file : TemplateFile}
    (given : ∀ p ∈ t.contents r.groups r.rendering kind,
      ∃ g, r.Asks t g ∧ p = (g.name, g.textFor r.rendering kind)) :
    r.ReceivesAsked t kind file := by
  have asked {token : String}
      (h : token ∈ (t.contents r.groups r.rendering kind).map Prod.fst) :
      ∃ g, r.Asks t g ∧ g.name = token := by
    obtain ⟨p, hp, rfl⟩ := List.mem_map.mp h
    obtain ⟨g, asks, rfl⟩ := given p hp
    exact ⟨g, asks, rfl⟩
  have reported (token : String) (h : r.Reports t kind file token) :
      ∃ g, r.Asks t g ∧ g.name = token :=
    asked (TemplateText.mem_of_missing (reports_iff.mp h).1)
  have listed {g : Group} (hg : r.groups.get? g.name = some g) (wrapper : g.isFree = false)
      (h : ∃ g', r.Asks t g' ∧ g'.name = g.name) : g.name ∈ t.classes := by
    obtain ⟨g', ⟨hg', asks⟩, same⟩ := h
    obtain rfl := Option.some.inj ((same ▸ hg').symm.trans hg)
    rcases asks with ⟨-, listed⟩ | ⟨free, -⟩
    · exact listed
    · rw [wrapper] at free
      contradiction
  refine ⟨given, reported, fun g hg wrapper unlisted => ⟨fun h => ?_, fun h => ?_⟩⟩
  · exact unlisted (listed hg wrapper (asked h))
  · exact unlisted (listed hg wrapper (reported _ h))

namespace Ready
variable {r : Run}

private theorem isFree_eq_false_iff (ready : r.Ready) {name : String} {g : Group}
    (hg : r.collect.groups.get? name = some g) :
    g.isFree = false ↔ name ∈ r.model.classes.map ClassEntry.name := by
  constructor
  · intro wrapper
    refine Decidable.byContradiction fun other => ?_
    have used := (ready.collected.mem_keys other).mp (Table.mem_keys_of_get? hg)
    obtain rfl := Option.some.inj ((ready.collected.ofGroup name used).symm.trans hg)
    simp [Group.isFree] at wrapper
  · intro known
    obtain ⟨c, hc, rfl⟩ := List.mem_map.mp known
    obtain rfl := Option.some.inj ((ready.collected.ofClass c hc).symm.trans hg)
    simp [Group.isFree]

private theorem isSome_get? (ready : r.Ready) {name : String}
    (known : name ∈ r.model.classes.map ClassEntry.name) :
    ∃ g, r.collect.groups.get? name = some g := by
  obtain ⟨c, hc, rfl⟩ := List.mem_map.mp known
  exact ⟨_, ready.collected.ofClass c hc⟩

/-- A template gets what it asks for just if it lists the class whose name it bears, if there is
one. -/
theorem receivesAsked_iff (ready : r.Ready) {t : Template}
    (declared : ∀ name ∈ t.classes, name ∈ r.model.classes.map ClassEntry.name) (kind : FileKind)
    (file : TemplateFile) :
    r.collect.render.ReceivesAsked t kind file ↔
      (t.name ∈ r.model.classes.map ClassEntry.name → t.name ∈ t.classes) := by
  constructor
  · intro asked known
    obtain ⟨g, hg⟩ := ready.isSome_get? known
    have wrapper := (ready.isFree_eq_false_iff hg).mpr known
    have name := ready.name_eq hg
    refine Decidable.byContradiction fun unlisted => ?_
    rw [← name] at hg unlisted
    have own : g.name ∈ t.slots := Template.mem_slots.mpr (.inr name)
    have given : (g.name, g.textFor r.rendering kind) ∈
        t.contents r.collect.groups r.rendering kind :=
      Template.mem_contents.mpr ⟨g.name, own, g, hg, rfl⟩
    exact (asked.unlisted g hg wrapper unlisted).1 (List.mem_map_of_mem given)
  · intro own
    refine .of_given fun p hp => ?_
    obtain ⟨slot, hs, g, hg, rfl⟩ := Template.mem_contents.mp hp
    have name := ready.name_eq hg
    refine ⟨g, ⟨name ▸ hg, ?_⟩, rfl⟩
    rw [name]
    by_cases listed : slot ∈ t.classes
    · exact .inl ⟨(ready.isFree_eq_false_iff hg).mpr (declared slot listed), listed⟩
    · have same := (Template.mem_slots.mp hs).resolve_left listed
      refine .inr ⟨?_, same⟩
      rw [← Bool.not_eq_false, ready.isFree_eq_false_iff hg]
      exact fun known => listed (same ▸ own (same ▸ known))

end Ready

/-- A run over a consistent model is ready to collect once all is read. -/
theorem Loaded.ready {model : Model} {registry : Registry} {r : Run}
    (loaded : Loaded model registry r) (consistent : model.violation? = none) : r.Ready :=
  ⟨loaded.ofModel ▸ consistent, loaded.ofModel ▸ loaded.headers⟩

/-- The templates that were read list declared classes only. -/
theorem Loaded.declared {model : Model} {registry : Registry} {r : Run}
    (loaded : Loaded model registry r) (consistent : model.violation? = none) {t : Template}
    (ht : t ∈ r.templates) {name : String} (listed : name ∈ t.classes) :
    name ∈ r.model.classes.map ClassEntry.name := by
  have read : t.entry ∈ model.templates.map TemplateEntry.proper :=
    loaded.templates ▸ List.mem_map_of_mem ht
  obtain ⟨e, he, same⟩ := List.mem_map.mp read
  have classes : e.classes = t.classes := congrArg TemplateEntry.classes same
  rw [loaded.ofModel]
  exact Model.listed_class consistent he (classes ▸ listed)

/-- The files of a template are their sources but for texts that the template is given, each at a spot
of its token. All of these are asked for, and so is all that is reported missing, just if the
template does not bear the name of a class that it does not list. -/
theorem complete_asked_iff {m : Type → Type} [Monad m] [LawfulMonad m] (sources : Sources m)
    (registry : Registry) (model : Model) (consistent : model.violation? = none) :
    SatisfiesM (fun result => ∀ r, result = .ok r →
        ∀ t ∈ r.templates, ∀ kind file, t.file? kind = some file →
          (∃ placed, r.PutsOut t kind file placed ∧
            ∀ p content, (p, some content) ∈ placed →
              (p.name, content) ∈ t.contents r.groups r.rendering kind) ∧
          (r.ReceivesAsked t kind file ↔
            (t.name ∈ model.classes.map ClassEntry.name → t.name ∈ t.classes)))
      (complete model registry sources) := by
  refine (complete_spec sources model registry).imp fun ran r ok t ht kind file hfile => ?_
  obtain ⟨r₀, loaded, rfl⟩ := ran r ok
  constructor
  · exact ⟨_, putsOut_render (r := r₀.collect) ht hfile, fun p content => TemplateText.mem_of_placed⟩
  · have asked := (loaded.ready consistent).receivesAsked_iff (t := t)
      (fun name listed => loaded.declared consistent ht listed) kind file
    rw [loaded.ofModel] at asked
    exact asked

theorem strict_asked :
    ∃ r, complete strict ∅ strictSources = .ok r ∧
      ∀ kind file, strictTemplate.file? kind = some file →
        r.ReceivesAsked strictTemplate kind file := by
  have ran : complete strict ∅ strictSources = .ok strictLoaded.collect.render := rfl
  have asked := SatisfiesM_Id_eq.mp
    (complete_asked_iff strictSources ∅ strict (by decide +kernel)) _ ran
  refine ⟨_, ran, fun kind file hfile => ?_⟩
  exact (asked strictTemplate (List.mem_singleton.mpr rfl) kind file hfile).2.mpr (by decide)

def namesake : Model :=
  { Model.empty with
    classes := [⟨"Timer", "lv_timer_t"⟩]
    templates := [⟨"Timer", [], some "timer.h", none⟩]
    headers := [⟨"timer.h", "misc", []⟩] }

def namesakeSources : Sources Id where
  header _ := .ok "void lv_timer_run(lv_timer_t * t);"
  template _ := .ok "%%Timer%%"

/-- The class comes into the template though it is not listed there. -/
theorem namesake_receives_class :
    namesake.violation? = none ∧
      ∃ r, complete namesake .lvgl namesakeSources = .ok r ∧
        r.templates.map Template.classes = [[]] ∧
        (r.groups.get? "Timer").map Group.isFree = some false ∧
        r.outputs = [⟨"timer.h", .header, "Timer", "void run();"⟩] := by
  refine ⟨by decide +kernel, _, rfl, ?_⟩
  decide +kernel

end Run
end HeaderWrap
