import HeaderWrap.Proofs.Run.Requests

/-! What a run reports as lost. A token is reported missing from a file that has fewer sites for it
than the template lists it, so the report is true as long as no file has some sites for a token but
too few. -/
namespace HeaderWrap

private theorem Template.count_contents (t : Template) {groups : Groups}
    (named : ∀ name g, groups.get? name = some g → g.name = name) (r : Rendering) (kind : FileKind)
    {slot : String} (known : (groups.get? slot).isSome) :
    ((t.contents groups r kind).map Prod.fst).count slot = t.slots.count slot := by
  have names : (t.contents groups r kind).map Prod.fst =
      t.slots.filter fun name => (groups.get? name).isSome := by
    rw [contents, List.map_map]
    induction t.slots with
    | nil => rfl
    | cons name slots ih =>
      cases h : groups.get? name with
      | none => rw [List.filterMap_cons_none h, ih, List.filter_cons_of_neg (by simp [h])]
      | some g =>
        rw [List.filterMap_cons_some h, List.map_cons, ih, List.filter_cons_of_pos (by simp [h])]
        exact congrArg (· :: _) (named name g h)
  rw [names, List.count_filter (p := fun name => (groups.get? name).isSome) known]

private theorem Template.nodup_slots {t : Template} (nodup : t.classes.Nodup) : t.slots.Nodup := by
  by_cases own : t.name ∈ t.classes
  · simpa [slots, own] using nodup
  · have apart : ∀ name ∈ t.classes, name ≠ t.name := fun name h same => own (same ▸ h)
    simpa [slots, own, List.nodup_append, nodup] using apart

namespace Run

/-- A file that has a site for a token with functions has one for each time that its template lists
it. -/
def Suffices (r : Run) (t : Template) (file : TemplateFile) : Prop :=
  ∀ token, r.holdsFunctions token → token ∈ file.text.tokens →
    t.slots.count token ≤ file.text.tokens.count token

/-- One site is enough where no class is listed twice. -/
theorem suffices_of_nodup (r : Run) {t : Template} (nodup : t.classes.Nodup)
    (file : TemplateFile) : r.Suffices t file := by
  intro token _ site
  calc t.slots.count token ≤ 1 := List.nodup_iff_count_le_one.mp (Template.nodup_slots nodup) token
    _ ≤ file.text.tokens.count token := List.count_pos_iff.mpr site

/-- What is reported missing from a file has no site there, and what is put out for the file shows
none of its functions. -/
def ReportsTruly (r : Run) (t : Template) (kind : FileKind) (file : TemplateFile) : Prop :=
  ∀ token, r.Reports t kind file token → token ∉ file.text.tokens ∧
    ∃ placed, r.PutsOut t kind file placed ∧
      ∀ p content, (p, some content) ∈ placed → p.name ≠ token

/-- A token is reported if its group has functions and the file too few sites for it. -/
theorem reports_iff_lt {r : Run} (named : ∀ name g, r.groups.get? name = some g → g.name = name)
    {t : Template} {kind : FileKind} {file : TemplateFile} {token : String} :
    r.Reports t kind file token ↔
      r.holdsFunctions token ∧ file.text.tokens.count token < t.slots.count token := by
  rw [reports_iff, and_comm]
  refine and_congr_right fun functions => ?_
  have known : (r.groups.get? token).isSome := by
    obtain ⟨g, hg, -⟩ := (Option.any_eq_true _ _).mp functions
    rw [hg, Option.isSome_some]
  rw [← List.count_pos_iff, rendered, TemplateText.count_missing,
    t.count_contents named r.rendering kind known]
  exact Nat.sub_pos_iff_lt

private theorem PutsOut.name_ne {r : Run} {t : Template} {kind : FileKind} {file : TemplateFile}
    {placed : List (Spot × Option String)} (output : r.PutsOut t kind file placed) {token : String}
    (absent : token ∉ file.text.tokens) (p : Spot) (content : String)
    (h : (p, some content) ∈ placed) : p.name ≠ token := by
  rintro rfl
  have spot : p ∈ file.text.spots := output.spots ▸ List.mem_map_of_mem h
  have name := List.mem_map_of_mem (f := Spot.name) spot
  rw [TemplateText.spots, TemplateText.map_name_spotsFrom] at name
  exact absent name

/-- Reports are true just if no file has some sites for a token, but too few. -/
theorem reportsTruly_iff {r : Run}
    (named : ∀ name g, r.groups.get? name = some g → g.name = name) {t : Template}
    (ht : t ∈ r.templates) {kind : FileKind} {file : TemplateFile}
    (hfile : t.file? kind = some file) :
    r.render.ReportsTruly t kind file ↔ r.render.Suffices t file := by
  have short {token : String} : r.render.Reports t kind file token ↔
      r.holdsFunctions token ∧ file.text.tokens.count token < t.slots.count token :=
    reports_iff_lt (r := r.render) named
  constructor
  · intro truly token functions site
    refine Nat.le_of_not_lt fun few => ?_
    exact (truly token (short.mpr ⟨functions, few⟩)).1 site
  · intro enough token reported
    obtain ⟨functions, few⟩ := short.mp reported
    have absent : token ∉ file.text.tokens := fun site =>
      Nat.not_lt_of_le (enough token functions site) few
    have output := putsOut_render (r := r) ht hfile
    exact ⟨absent, _, output, output.name_ne absent⟩

private theorem mem_renderTemplate_iff {r : Run} {t : Template} {f : RenderedFile} :
    f ∈ r.renderTemplate t ↔
      ∃ kind file, t.file? kind = some file ∧ f = r.rendered t kind file := by
  constructor
  · intro h
    obtain ⟨kind, -, made⟩ := List.mem_filterMap.mp h
    cases hfile : t.file? kind with
    | none => simp [hfile] at made
    | some file =>
      refine ⟨kind, file, hfile, ?_⟩
      simpa [Template.render?, hfile, rendered, eq_comm] using made
  · rintro ⟨kind, file, hfile, rfl⟩
    exact mem_renderTemplate hfile

private theorem mem_diagnostics_render {r : Run} {d : Diagnostic} :
    d ∈ r.render.diagnostics ↔ d ∈ r.diagnostics ∨
      ∃ t ∈ r.templates, ∃ kind file, t.file? kind = some file ∧
        d ∈ r.fileDiagnostics (r.rendered t kind file) := by
  rw [render, List.mem_append, List.mem_flatMap]
  refine or_congr_right ?_
  simp only [List.mem_flatMap, mem_renderTemplate_iff]
  constructor
  · rintro ⟨_, ⟨t, ht, kind, file, hfile, rfl⟩, hd⟩
    exact ⟨t, ht, kind, file, hfile, hd⟩
  · rintro ⟨t, ht, kind, file, hfile, hd⟩
    exact ⟨_, ⟨t, ht, kind, file, hfile, rfl⟩, hd⟩

private theorem of_mem_fileDiagnostics {r : Run} {f : RenderedFile} {d : Diagnostic}
    (hd : d ∈ r.fileDiagnostics f) :
    d.location? = some f.path ∧
      (∀ name token, d.message = .missingToken name token → name = f.template.name) ∧
      (d.severity = .error ↔ r.model.options.strictTokens ∧
        ∃ token, d.message = .missingToken f.template.name token) := by
  simp only [fileDiagnostics, List.mem_append, List.mem_map] at hd
  rcases hd with ⟨token, -, rfl⟩ | ⟨token, -, rfl⟩
  · by_cases strict : r.model.options.strictTokens
    · simp [strict, eq_comm]
    · simp [strict, eq_comm]
  · simp

/-- Where tokens are strict, the errors of a run are those that rendering reports. -/
theorem no_error_iff {r : Run} (clean : ∀ d ∈ r.diagnostics, d.severity ≠ .error)
    (strict : r.model.options.strictTokens) :
    r.render.ofSeverity .error = [] ↔
      ∀ t ∈ r.templates, ∀ kind file, t.file? kind = some file →
        ∀ token, ¬ r.render.Reports t kind file token := by
  simp only [ofSeverity, Diagnostic.ofSeverity, List.filter_eq_nil_iff, decide_eq_true_eq]
  constructor
  · rintro none t ht kind file hfile token ⟨d, hd, message⟩
    have listed := mem_diagnostics_render.mpr (.inr ⟨t, ht, kind, file, hfile, hd⟩)
    exact none d listed ((of_mem_fileDiagnostics hd).2.2.mpr ⟨strict, token, message⟩)
  · intro none d hd error
    rcases mem_diagnostics_render.mp hd with before | ⟨t, ht, kind, file, hfile, hd⟩
    · exact clean d before error
    · obtain ⟨-, token, message⟩ := (of_mem_fileDiagnostics hd).2.2.mp error
      exact none t ht kind file hfile token ⟨d, hd, message⟩

private theorem suffices_and_present_iff {r : Run} {t : Template} {file : TemplateFile} :
    (r.Suffices t file ∧ ∀ slot ∈ t.slots, r.holdsFunctions slot → slot ∈ file.text.tokens) ↔
      ∀ token, r.holdsFunctions token → t.slots.count token ≤ file.text.tokens.count token := by
  constructor
  · rintro ⟨enough, present⟩ token functions
    by_cases listed : token ∈ t.slots
    · exact enough token functions (present token listed functions)
    · rw [List.count_eq_zero_of_not_mem listed]
      exact Nat.zero_le _
  · refine fun all => ⟨fun token functions _ => all token functions, fun slot hs functions => ?_⟩
    exact List.count_pos_iff.mp ((List.count_pos_iff.mpr hs).trans_le (all slot functions))

private theorem Loaded.no_error_collect {model : Model} {registry : Registry} {r : Run}
    (loaded : Loaded model registry r) (ready : r.Ready) :
    ∀ d ∈ r.collect.diagnostics, d.severity ≠ .error := by
  rw [ready.diagnostics_collect, loaded.diagnostics, List.nil_append]
  split
  · simp
  · simp

private theorem Loaded.exists_reports {model : Model} {registry : Registry} {r : Run}
    (loaded : Loaded model registry r) (ready : r.Ready) {d : Diagnostic}
    (hd : d ∈ r.collect.render.diagnostics) {name token : String}
    (message : d.message = .missingToken name token) :
    ∃ t ∈ r.collect.render.templates, ∃ kind file, t.file? kind = some file ∧ t.name = name ∧
      d.location? = some file.path ∧ r.collect.render.Reports t kind file token := by
  rcases mem_diagnostics_render.mp hd with before | ⟨t, ht, kind, file, hfile, hd⟩
  · rw [ready.diagnostics_collect, loaded.diagnostics] at before
    split at before
    · obtain rfl := List.mem_singleton.mp before
      contradiction
    · contradiction
  · obtain ⟨place, own, -⟩ := of_mem_fileDiagnostics hd
    obtain rfl := own name token message
    exact ⟨t, ht, kind, file, hfile, rfl, place, d, hd, message⟩

/-- What a run reports missing from a file is really missing there just if the file does not have
some sites for a token, but fewer than its template lists it. Where tokens are strict, a run has no
error just if each file has a site for each of its slots with functions, and enough of them, and
then it is written. -/
theorem complete_reports_iff {m : Type → Type} [Monad m] [LawfulMonad m] (sources : Sources m)
    (registry : Registry) (model : Model) (consistent : model.violation? = none) :
    SatisfiesM (fun result => ∀ r, result = .ok r →
        (∀ d ∈ r.diagnostics, ∀ name token, d.message = .missingToken name token →
          ∃ t ∈ r.templates, ∃ kind file, t.file? kind = some file ∧ t.name = name ∧
            d.location? = some file.path ∧ r.Reports t kind file token) ∧
        (∀ t ∈ r.templates, ∀ kind file, t.file? kind = some file →
          (r.ReportsTruly t kind file ↔ r.Suffices t file)) ∧
        (model.options.strictTokens →
          (r.ofSeverity .error = [] ↔
            ∀ t ∈ r.templates, ∀ kind file, t.file? kind = some file →
              r.Suffices t file ∧
                ∀ slot ∈ t.slots, r.holdsFunctions slot → slot ∈ file.text.tokens) ∧
          (r.ofSeverity .error = [] →
            ∀ {n : Type → Type} [Monad n] [Disk n] (directory : String),
              r.write (m := n) directory = writeOutputs directory r.outputs)))
      (complete model registry sources) := by
  refine (complete_spec sources model registry).imp fun ran r ok => ?_
  obtain ⟨r₀, loaded, rfl⟩ := ran r ok
  have ready := loaded.ready consistent
  have named : ∀ name g, r₀.collect.groups.get? name = some g → g.name = name :=
    fun _ _ => ready.name_eq
  have clean := loaded.no_error_collect ready
  refine ⟨fun d hd name token => loaded.exists_reports ready hd,
    fun t ht kind file => reportsTruly_iff named ht,
    fun strict => ⟨?_, fun none n _ _ directory => by rw [write, none]⟩⟩
  rw [no_error_iff clean (loaded.ofModel ▸ strict)]
  refine forall₂_congr fun t ht => forall₃_congr fun kind file hfile => ?_
  rw [suffices_and_present_iff]
  refine forall_congr' fun token => ?_
  rw [reports_iff_lt (r := r₀.collect.render) named, not_and, not_lt]

theorem strict_reports_truly :
    ∃ r, complete strict ∅ strictSources = .ok r ∧ r.ofSeverity .error ≠ [] ∧
      ∀ kind file, strictTemplate.file? kind = some file →
        r.ReportsTruly strictTemplate kind file := by
  have ran : complete strict ∅ strictSources = .ok strictLoaded.collect.render := rfl
  obtain ⟨-, truly, -⟩ := SatisfiesM_Id_eq.mp
    (complete_reports_iff strictSources ∅ strict (by decide +kernel)) _ ran
  refine ⟨_, ran, by decide +kernel, fun kind file hfile => ?_⟩
  have enough : strictLoaded.collect.render.Suffices strictTemplate file :=
    suffices_of_nodup _ (by decide) file
  exact (truly strictTemplate (List.mem_singleton.mpr rfl) kind file hfile).mpr enough

def twice : Model :=
  { Model.empty with
    options := { strictTokens := true }
    classes := [⟨"Timer", "lv_timer_t"⟩]
    templates := [⟨"misc", ["Timer", "Timer"], some "timer.h", none⟩]
    headers := [⟨"timer.h", "misc", []⟩] }

def twiceSources : Sources Id where
  header _ := .ok "void lv_timer_run(lv_timer_t * t);"
  template _ := .ok "%%Timer%%"

/-- The site is reported missing though the file has it and shows the class there. -/
theorem twice_reports_falsely :
    twice.violation? = none ∧
      ∃ r, complete twice .lvgl twiceSources = .ok r ∧
        r.diagnostics = [⟨.error, "render", .missingToken "misc" "Timer", some "timer.h"⟩] ∧
        r.templates.map (fun t => t.header?.map (·.text.tokens)) = [some ["Timer"]] ∧
        r.outputs = [⟨"timer.h", .header, "misc", "void run();"⟩] := by
  refine ⟨by decide +kernel, _, rfl, ?_⟩
  decide +kernel

end Run
end HeaderWrap
