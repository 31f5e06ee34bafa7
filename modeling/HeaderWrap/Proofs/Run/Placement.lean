import HeaderWrap.Proofs.Run.Distribution
import HeaderWrap.Proofs.Run.Loading
import HeaderWrap.Proofs.Template.Patching

/-! Where the functions of a group are found in the rendered files: at a site of the group's name,
or among the losses that a run reports. -/
namespace HeaderWrap

private theorem Template.count_slots_le (t : Template) {groups : Groups} {slot : String} {g : Group}
    (hg : groups.get? slot = some g) (r : Rendering) (kind : FileKind) :
    t.slots.count slot ≤ (t.contents groups r kind).count (g.name, g.textFor r kind) := by
  rw [contents]
  induction t.slots with
  | nil => exact Nat.le_refl 0
  | cons name slots ih =>
    by_cases own : name = slot
    · subst own
      rw [List.filterMap_cons_some hg, List.map_cons, List.count_cons_self, List.count_cons_self]
      exact Nat.succ_le_succ ih
    · rw [List.count_cons_of_ne own]
      refine ih.trans (List.Sublist.count_le _ ?_)
      exact ((List.sublist_cons_self name slots).filterMap _).map _

namespace Run

/-- A group is found under its own name. -/
theorem Ready.name_eq {r : Run} (ready : r.Ready) {name : String} {g : Group}
    (hg : r.collect.groups.get? name = some g) : g.name = name := by
  have known := Table.mem_keys_of_get? hg
  rw [ready.collected.keys] at known
  rcases List.mem_append.mp known with known | known
  · obtain ⟨c, hc, rfl⟩ := List.mem_map.mp known
    obtain rfl := Option.some.inj ((ready.collected.ofClass c hc).symm.trans hg)
    exact name_classGroup _ _ _
  · have used := ready.collected.ofGroup name (List.mem_eraseDups.mp known)
    obtain rfl := Option.some.inj (used.symm.trans hg)
    exact name_freeGroup _ _ _

theorem mem_renderTemplate {r : Run} {t : Template} {kind : FileKind} {file : TemplateFile}
    (h : t.file? kind = some file) :
    ⟨t, kind, file.path, file.text.fill (t.contents r.groups r.rendering kind)⟩ ∈
      r.renderTemplate t := by
  have listed : kind ∈ [FileKind.header, .implementation] := by cases kind <;> decide
  refine List.mem_filterMap.mpr ⟨kind, listed, ?_⟩
  simp [Template.render?, h]

private theorem missing_reported {r : Run} {f : RenderedFile} {token : String}
    (missing : token ∈ f.filled.missing) (lost : r.holdsFunctions token) :
    ∃ d ∈ r.fileDiagnostics f, d.location? = some f.path ∧
      d.message = .missingToken f.template.name token ∧
      (d.severity = .error ↔ r.model.options.strictTokens) := by
  refine ⟨_, List.mem_append_left _ (List.mem_map_of_mem (List.mem_filter.mpr ⟨missing, lost⟩)),
    rfl, rfl, ?_⟩
  split
  · simp_all
  · simp_all

/-- What is put out for a file of a template is its source with an edit for each spot that receives a
content, and everything else is copied. -/
structure PutsOut (r : Run) (t : Template) (kind : FileKind) (file : TemplateFile)
    (placed : List (Spot × Option String)) : Prop where
  spots : placed.map Prod.fst = file.text.spots
  laid : Laid file.text.source.toList 0 file.text.spots
  inOrder : InOrder file.text.source.toList.length 0 (editsOf file.text.source.toList placed)
  listed : ⟨file.path, kind, t.name, String.ofList
    (patch file.text.source.toList 0 (editsOf file.text.source.toList placed))⟩ ∈ r.outputs

theorem putsOut_render {r : Run} {t : Template} (ht : t ∈ r.templates) {kind : FileKind}
    {file : TemplateFile} (hfile : t.file? kind = some file) :
    r.render.PutsOut t kind file
      (file.text.placed (t.contents r.groups r.rendering kind)) where
  spots := file.text.map_fst_placed _
  laid := file.text.laid_spots
  inOrder := file.text.inOrder_placed _
  listed := by
    rw [← TemplateText.text_fill]
    exact List.mem_map_of_mem (List.mem_flatMap.mpr ⟨t, ht, mem_renderTemplate hfile⟩)

/-- Every file of the templates is put out with the text of each of its slots that has functions: the
lines of the text, each behind the indent of a spot of the slot's name, stand in the place of that
spot, and of as many as the slot is repeated. Exceptions are those that are lost. -/
def ShowsAllBut (r : Run) (lost : Template → TemplateFile → String → Prop) : Prop :=
  ∀ t ∈ r.templates, ∀ kind file, t.file? kind = some file →
    ∃ placed, r.PutsOut t kind file placed ∧
      ∀ slot ∈ t.slots, ∀ g, r.groups.get? slot = some g → g.isEmpty = false →
        (∃ p ∈ file.text.spots, p.name = slot ∧
            ∃ e ∈ editsOf file.text.source.toList placed,
              e.Shows file.text.source.toList p (g.textFor r.rendering kind)) ∧
          t.slots.count slot ≤
            (placed.map fun q => (q.1.name, q.2)).count (slot, some (g.textFor r.rendering kind)) ∨
        lost t file slot

/-- A slot that the diagnostics report missing, as an error just if tokens are strict. -/
def IsReported (r : Run) (t : Template) (file : TemplateFile) (slot : String) : Prop :=
  ∃ d ∈ r.diagnostics, d.location? = some file.path ∧ d.message = .missingToken t.name slot ∧
    (d.severity = .error ↔ r.model.options.strictTokens)

/-- What a file does not show is reported. -/
theorem showsAllBut_reported {r : Run}
    (named : ∀ name g, r.groups.get? name = some g → g.name = name) :
    r.render.ShowsAllBut r.render.IsReported := by
  intro t ht kind file hfile
  have rendered := List.mem_flatMap.mpr ⟨t, ht, mem_renderTemplate (r := r) hfile⟩
  refine ⟨_, putsOut_render (r := r) ht hfile, fun slot hs g hg full => ?_⟩
  have asked := t.count_slots_le hg r.rendering kind
  rw [named slot g hg] at asked
  rcases file.text.count_dealt (t.contents r.groups r.rendering kind) slot
    (g.textFor r.rendering kind) with shown | missing
  · have all := asked.trans shown
    rw [← TemplateText.map_name_placed] at all
    have one := List.count_pos_iff.mp ((List.count_pos_iff.mpr hs).trans_le all)
    obtain ⟨⟨p, content?⟩, hp, same⟩ := List.mem_map.mp one
    obtain ⟨name, rfl⟩ := Prod.mk.inj same
    have spot := List.mem_map_of_mem (f := Prod.fst) hp
    rw [TemplateText.map_fst_placed] at spot
    exact .inl ⟨⟨p, spot, name, exists_edit (file.text.laid_placed _) hp⟩, all⟩
  · have lost : r.holdsFunctions slot := by
      change r.groups.get? slot = some g at hg
      simp [holdsFunctions, hg, full]
    obtain ⟨d, hd, report⟩ := missing_reported (f := ⟨t, kind, file.path, _⟩) missing lost
    exact .inr ⟨d, List.mem_append_right _ (List.mem_flatMap.mpr ⟨_, rendered, hd⟩), report⟩

/-- Without errors nothing is lost where tokens are strict. -/
theorem ShowsAllBut.of_no_error {r : Run} (all : r.ShowsAllBut r.IsReported)
    (strict : r.model.options.strictTokens) (clean : r.ofSeverity .error = []) :
    r.ShowsAllBut fun _ _ _ => False := by
  intro t ht kind file hfile
  obtain ⟨placed, output, shown⟩ := all t ht kind file hfile
  refine ⟨placed, output, fun slot hs g hg full => ?_⟩
  refine (shown slot hs g hg full).imp_right ?_
  rintro ⟨d, hd, -, -, severity⟩
  have errors : d ∈ r.ofSeverity .error :=
    List.mem_filter.mpr ⟨hd, decide_eq_true (severity.mpr strict)⟩
  rw [clean] at errors
  contradiction

/-- No slot with functions is dropped silently. Each file of each template shows it or has a
diagnostic that names it, which is an error just if tokens are strict; then a run is written only if
every file shows all its slots. -/
theorem complete_shows {m : Type → Type} [Monad m] [LawfulMonad m] (sources : Sources m)
    (registry : Registry) (model : Model) (consistent : model.violation? = none) :
    SatisfiesM (fun result => ∀ r, result = .ok r →
        r.model = model ∧
        r.templates.map Template.entry = model.templates.map TemplateEntry.proper ∧
        r.ShowsAllBut r.IsReported ∧
        (model.options.strictTokens →
          ∀ {n : Type → Type} [Monad n] [Disk n] (directory : String),
            (∃ errors, r.write (m := n) directory = return .error (.refused (errors + 1))) ∨
            r.write (m := n) directory = writeOutputs directory r.outputs ∧
              r.ShowsAllBut fun _ _ _ => False))
      (complete model registry sources) := by
  refine (complete_spec sources model registry).imp fun ran r ok => ?_
  obtain ⟨r₀, loaded, rfl⟩ := ran r ok
  have ready : r₀.Ready := ⟨loaded.ofModel ▸ consistent, loaded.ofModel ▸ loaded.headers⟩
  have all := showsAllBut_reported (r := r₀.collect) fun _ _ => ready.name_eq
  refine ⟨loaded.ofModel, loaded.templates, all, fun strict n _ _ directory => ?_⟩
  cases errors : r₀.collect.render.ofSeverity .error with
  | nil =>
    refine .inr ⟨by rw [write, errors], all.of_no_error ?_ errors⟩
    exact (congrArg (·.options.strictTokens) loaded.ofModel).trans strict
  | cons d ds => exact .inl ⟨ds.length, by rw [write, errors]; rfl⟩

def strict : Model :=
  { Model.empty with
    options := { strictTokens := true }
    classes := [⟨"Timer", "lv_timer_t"⟩]
    templates := [⟨"misc", ["Timer"], some "misc.h", some "misc.cpp"⟩]
    headers := [⟨"timer.h", "misc", []⟩] }

def strictSources : Sources Id where
  header _ := .ok "void lv_timer_run(lv_timer_t * t);"
  template path := .ok (if path = "misc.h" then "%%misc%%\n  %%Timer%%" else "%%misc%%")

def strictTemplate : Template :=
  ⟨"misc", ["Timer"], some ⟨"misc.h", .parse "%%misc%%\n  %%Timer%%"⟩,
    some ⟨"misc.cpp", .parse "%%misc%%"⟩⟩

def strictLoaded : Run :=
  { start strict ∅ with
    headers := [⟨⟨"timer.h", "misc", []⟩, "void lv_timer_run(lv_timer_t * t);"⟩]
    templates := [strictTemplate] }

theorem strict_reported :
    ∃ r, complete strict ∅ strictSources = .ok r ∧
      (∃ d ∈ r.diagnostics, d.location? = some "misc.cpp" ∧
        d.message = .missingToken "misc" "Timer" ∧ d.severity = .error) ∧
      let text := TemplateText.parse "%%misc%%\n  %%Timer%%"
      ∃ placed, r.PutsOut strictTemplate .header ⟨"misc.h", text⟩ placed ∧
        ∃ e ∈ editsOf text.source.toList placed,
          e.Shows text.source.toList ⟨"Timer", 9, 11, 20⟩ "void run();" := by
  have ran : complete strict ∅ strictSources = .ok strictLoaded.collect.render := rfl
  obtain ⟨-, -, shows, -⟩ :=
    SatisfiesM_Id_eq.mp (complete_shows strictSources ∅ strict (by decide +kernel)) _ ran
  obtain ⟨g, hg, full, declared⟩ : ∃ g, strictLoaded.collect.render.groups.get? "Timer" = some g ∧
      g.isEmpty = false ∧ g.textFor strictLoaded.collect.render.rendering .header = "void run();" := by
    have held : (strictLoaded.collect.render.groups.get? "Timer").any fun g => !g.isEmpty &&
        g.textFor strictLoaded.collect.render.rendering .header == "void run();" := by
      decide +kernel
    simpa [Option.any_eq_true] using held
  have listed := List.mem_singleton.mpr (Eq.refl strictTemplate)
  refine ⟨_, ran, ?_, ?_⟩
  · obtain ⟨placed, -, slots⟩ := shows _ listed .implementation ⟨"misc.cpp", .parse "%%misc%%"⟩ rfl
    rcases slots "Timer" (by decide) g hg full
      with ⟨⟨p, spot, name, -⟩, -⟩ | ⟨d, hd, place, what, error⟩
    · have other : ∀ p ∈ (TemplateText.parse "%%misc%%").spots, p.name ≠ "Timer" := by
        decide +kernel
      exact absurd name (other p spot)
    · exact ⟨d, hd, place, what, error.mpr rfl⟩
  · obtain ⟨placed, output, slots⟩ :=
      shows _ listed .header ⟨"misc.h", .parse "%%misc%%\n  %%Timer%%"⟩ rfl
    refine ⟨placed, output, ?_⟩
    rcases slots "Timer" (by decide) g hg full with ⟨⟨p, spot, name, shown⟩, -⟩ | ⟨d, hd, place, -⟩
    · have only : ∀ p ∈ (TemplateText.parse "%%misc%%\n  %%Timer%%").spots,
          p.name = "Timer" → p = ⟨"Timer", 9, 11, 20⟩ := by
        decide +kernel
      rwa [only p spot name, declared] at shown
    · have other : ∀ d ∈ strictLoaded.collect.render.diagnostics,
          d.location? ≠ some "misc.h" := by
        decide +kernel
      exact absurd place (other d hd)

end Run
end HeaderWrap
