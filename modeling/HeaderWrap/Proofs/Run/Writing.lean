import HeaderWrap.Model.Validation
import HeaderWrap.Proofs.Disk.Tree
import HeaderWrap.Proofs.Run.Loading

/-! What a written run leaves in a file tree: all rendered files, unless two that differ lead to one
place. Then, and only then, writing the run again leaves the tree as it is. -/
namespace HeaderWrap

def TemplateEntry.paths (e : TemplateEntry) : List String :=
  [e.headerPath?, e.implementationPath?].reduceOption

namespace Run
open FileTree

/-- The rendered files are in a tree, and writing them changes nothing. -/
structure Settled (r : Run) (directory : String) (t : FileTree) : Prop where
  held : ∀ o ∈ r.outputs, t.read (Path.join directory o.path) = .ok o.content
  unchanged : (r.write (m := StateM FileTree) directory).run t =
    (.ok ⟨[], r.outputs.map Output.path⟩, t)

/-- Rendered files that lead to one place are the same. -/
def Undisputed (r : Run) (directory : String) (t : FileTree) : Prop :=
  ∀ o ∈ r.outputs, ∀ o' ∈ r.outputs,
    t.locate (Path.join directory o.path) = t.locate (Path.join directory o'.path) →
      o.content = o'.content

private theorem writeOutputs_cons {directory : String} {o : Output} {os : List Output} {t t' : FileTree}
    {w : Written}
    (ran : (writeOutputs (m := StateM FileTree) directory (o :: os)).run t = (.ok w, t')) :
    ∃ u t₁ w₁,
      (Disk.update (m := StateM FileTree) (Path.join directory o.path) o.content).run t =
        (.ok u, t₁) ∧
      (writeOutputs (m := StateM FileTree) directory os).run t₁ = (.ok w₁, t') := by
  rw [writeOutputs, StateT.run_bind] at ran
  generalize first :
    (Disk.update (m := StateM FileTree) (Path.join directory o.path) o.content).run t = updated
    at ran
  obtain ⟨result, t₁⟩ := updated
  cases result with
  | error f => cases ran
  | ok u =>
    obtain ⟨outcome, rfl⟩ := Prod.mk.inj ran
    cases rest : ((writeOutputs (m := StateM FileTree) directory os).run t₁).1 with
    | error f =>
      change Except.map _ ((writeOutputs (m := StateM FileTree) directory os).run t₁).1 = _
        at outcome
      rw [rest] at outcome
      contradiction
    | ok w₁ => exact ⟨u, t₁, w₁, rfl, Prod.ext rest rfl⟩

/-- Files that hold their contents are not written again, and the tree stays as it is. -/
theorem writeOutputs_unchanged {directory : String} {os : List Output} {t : FileTree}
    (held : ∀ o ∈ os, t.read (Path.join directory o.path) = .ok o.content) :
    (writeOutputs (m := StateM FileTree) directory os).run t =
      (.ok ⟨[], os.map Output.path⟩, t) := by
  induction os with
  | nil => rfl
  | cons o os ih =>
    rw [writeOutputs, StateT.run_bind, Disk.update_unchanged (held o List.mem_cons_self)]
    change (StateT.run (bind (writeOutputs (m := StateM FileTree) directory os) _) t) = _
    rw [StateT.run_bind, ih fun o' ho' => held o' (List.mem_cons_of_mem _ ho')]
    rfl

/-- Writing leaves other places alone, and where outputs lead is the content of one of them. -/
theorem writeOutputs_spec {directory : String} {os : List Output} {t t' : FileTree} {w : Written}
    (ran : (writeOutputs (m := StateM FileTree) directory os).run t = (.ok w, t')) :
    t.Extends t' (fun place => ∃ o ∈ os, t'.Names (Path.join directory o.path) place) ∧
      ∀ o ∈ os, ∃ place, t'.Names (Path.join directory o.path) place ∧
        ∃ o' ∈ os, t'.Names (Path.join directory o'.path) place ∧
          t'.textAt? place = some o'.content := by
  induction os generalizing t w with
  | nil =>
    obtain rfl := (Prod.mk.inj ran).2
    exact ⟨.refl t _, nofun⟩
  | cons o os ih =>
    obtain ⟨u, t₁, w₁, first, rest⟩ := writeOutputs_cons ran
    obtain ⟨place, names, there, grown⟩ := Disk.update_spec first
    obtain ⟨grown', others⟩ := ih rest
    have names' := grown'.names names
    constructor
    · refine (grown.mono ?_).trans (grown'.mono ?_)
      · rintro _ rfl
        exact ⟨o, List.mem_cons_self, names'⟩
      · rintro place ⟨o', ho', leads⟩
        exact ⟨o', List.mem_cons_of_mem _ ho', leads⟩
    · intro o' ho'
      rcases List.mem_cons.mp ho' with rfl | ho'
      · -- the place of the first output is left alone, unless a later one leads there too
        by_cases later : ∃ o ∈ os, t'.Names (Path.join directory o.path) place
        · obtain ⟨o₁, ho₁, leads⟩ := later
          obtain ⟨_, leads', o₂, ho₂, lasts, text⟩ := others o₁ ho₁
          obtain rfl := leads'.unique leads
          exact ⟨_, names', o₂, List.mem_cons_of_mem _ ho₂, lasts, text⟩
        · exact ⟨place, names', o', List.mem_cons_self, names', grown'.textAt? later there⟩
      · obtain ⟨place, leads, o₂, ho₂, lasts, text⟩ := others o' ho'
        exact ⟨place, leads, o₂, List.mem_cons_of_mem _ ho₂, lasts, text⟩

/-- Only a run without errors is written. -/
theorem writeOutputs_of_write {r : Run} {directory : String} {t t' : FileTree} {w : Written}
    (ran : (r.write (m := StateM FileTree) directory).run t = (.ok w, t')) :
    r.ofSeverity .error = [] ∧
      (writeOutputs (m := StateM FileTree) directory r.outputs).run t = (.ok w, t') := by
  unfold write at ran
  split at ran
  · rename_i none
    exact ⟨none, ran⟩
  · cases ran

/-- After a run is written, the tree is settled just if rendered files that lead to one place are
the same. -/
theorem settled_iff {r : Run} {directory : String} {t t' : FileTree} {w : Written}
    (ran : (r.write (m := StateM FileTree) directory).run t = (.ok w, t')) :
    r.Settled directory t' ↔ r.Undisputed directory t' := by
  obtain ⟨clean, written⟩ := writeOutputs_of_write ran
  obtain ⟨-, lasts⟩ := writeOutputs_spec written
  constructor
  · intro settled o ho o' ho' same
    obtain ⟨place, names, text⟩ := read_eq_ok_iff.mp (settled.held o ho)
    obtain ⟨place', names', text'⟩ := read_eq_ok_iff.mp (settled.held o' ho')
    obtain rfl : place = place' := Except.ok.inj (names.2.symm.trans (same.trans names'.2))
    exact Option.some.inj (text.symm.trans text')
  · intro undisputed
    have held : ∀ o ∈ r.outputs, t'.read (Path.join directory o.path) = .ok o.content := by
      intro o ho
      obtain ⟨place, names, o', ho', names', text⟩ := lasts o ho
      rw [undisputed o ho o' ho' (names.2.trans names'.2.symm)]
      exact read_eq_ok_iff.mpr ⟨place, names, text⟩
    refine ⟨held, ?_⟩
    rw [write, clean]
    exact writeOutputs_unchanged held

private theorem undisputed_of_nodup {r : Run} {directory : String} {t : FileTree}
    (apart : ((r.outputs.map Output.path).map fun path =>
      t.locate (Path.join directory path)).Nodup) :
    r.Undisputed directory t := by
  rw [List.map_map] at apart
  intro o ho o' ho' same
  exact congrArg Output.content (List.inj_on_of_nodup_map apart ho ho' same)

private theorem paths_renderTemplate (r : Run) (t : Template) :
    (r.renderTemplate t).map RenderedFile.path =
      [t.entry.header?, t.entry.implementation?].reduceOption := by
  obtain ⟨name, classes, header?, implementation?⟩ := t
  cases header? <;> cases implementation? <;> rfl

/-- Rendering puts out the files that the model names, in their order. -/
theorem Loaded.paths_outputs {model : Model} {registry : Registry} {r : Run}
    (loaded : Loaded model registry r) :
    r.collect.render.outputs.map Output.path = model.templates.flatMap TemplateEntry.paths := by
  calc r.collect.render.outputs.map Output.path
    _ = r.templates.flatMap fun t => [t.entry.header?, t.entry.implementation?].reduceOption := by
      simp only [render, List.map_map, List.map_flatMap, Function.comp_def]
      exact congrArg (List.flatMap · r.templates) (funext (paths_renderTemplate r.collect))
    _ = (r.templates.map Template.entry).flatMap fun e =>
          [e.header?, e.implementation?].reduceOption := by rw [List.flatMap_map]
    _ = (model.templates.map TemplateEntry.proper).flatMap fun e =>
          [e.header?, e.implementation?].reduceOption := by rw [loaded.templates]
    _ = model.templates.flatMap TemplateEntry.paths := List.flatMap_map ..

/-- When a run is written to the end, the rendered files are in the tree, and writing them again
changes nothing, just if those of them that lead to one place are the same; so it is when no two
template files of the model lead to one place. -/
theorem complete_settles_iff {m : Type → Type} [Monad m] [LawfulMonad m] (sources : Sources m)
    (registry : Registry) (model : Model) :
    SatisfiesM (fun result => ∀ r, result = .ok r → ∀ directory (t t' : FileTree) w,
        (r.write (m := StateM FileTree) directory).run t = (.ok w, t') →
          (r.Settled directory t' ↔ r.Undisputed directory t') ∧
          (((model.templates.flatMap TemplateEntry.paths).map fun path =>
              t'.locate (Path.join directory path)).Nodup → r.Settled directory t'))
      (complete model registry sources) := by
  refine (complete_spec sources model registry).imp fun ran r ok directory t t' w written => ?_
  obtain ⟨r₀, loaded, rfl⟩ := ran r ok
  refine ⟨settled_iff written, fun apart => (settled_iff written).mpr ?_⟩
  exact undisputed_of_nodup (loaded.paths_outputs ▸ apart)

def pair (header implementation : String) : Model :=
  { Model.empty with
    templates := [⟨"misc", [], some header, some implementation⟩]
    headers := [⟨"lv_hal.h", "misc", []⟩] }

def pairSources : Sources Id where
  header _ := .ok "void f();"
  template _ := .ok "%%misc%%"

def pairRun (header implementation : String) : Run :=
  Run.render <| Run.collect
    { start (pair header implementation) ∅ with
      headers := [⟨⟨"lv_hal.h", "misc", []⟩, "void f();"⟩]
      templates := [⟨"misc", [], some ⟨header, .parse "%%misc%%"⟩,
        some ⟨implementation, .parse "%%misc%%"⟩⟩] }

def pairTree (header implementation : String) : FileTree :=
  (((pairRun header implementation).write (m := StateM FileTree) "out").run (.empty ["work"])).2

theorem pair_settles :
    complete (pair "misc/hal.h" "misc/hal.cpp") ∅ pairSources =
        .ok (pairRun "misc/hal.h" "misc/hal.cpp") ∧
      ((pairRun "misc/hal.h" "misc/hal.cpp").write (m := StateM FileTree) "out").run
          (.empty ["work"]) =
        (.ok ⟨["misc/hal.h", "misc/hal.cpp"], []⟩, pairTree "misc/hal.h" "misc/hal.cpp") ∧
      (pairRun "misc/hal.h" "misc/hal.cpp").Settled "out"
        (pairTree "misc/hal.h" "misc/hal.cpp") := by
  have ran : complete (pair "misc/hal.h" "misc/hal.cpp") ∅ pairSources =
    .ok (pairRun "misc/hal.h" "misc/hal.cpp") := rfl
  have written :
      ((pairRun "misc/hal.h" "misc/hal.cpp").write (m := StateM FileTree) "out").run
        (.empty ["work"]) =
      (.ok ⟨["misc/hal.h", "misc/hal.cpp"], []⟩, pairTree "misc/hal.h" "misc/hal.cpp") :=
    Prod.ext (by decide +kernel) rfl
  have settles := SatisfiesM_Id_eq.mp
    (complete_settles_iff pairSources ∅ (pair "misc/hal.h" "misc/hal.cpp")) _ ran
  exact ⟨ran, written, (settles "out" _ _ _ written).2 (by decide +kernel)⟩

/-- Two files under one path pass the checks of a model. The second is written over the first, and
each time both are written again. -/
theorem pair_overwritten :
    (pair "hal.h" "hal.h").violation? = none ∧
      complete (pair "hal.h" "hal.h") ∅ pairSources = .ok (pairRun "hal.h" "hal.h") ∧
      (pairRun "hal.h" "hal.h").ofSeverity .error = [] ∧
      (pairRun "hal.h" "hal.h").outputs =
        [⟨"hal.h", .header, "misc", "void f();"⟩,
          ⟨"hal.h", .implementation, "misc", "void f() \x7b\n\t f();\n\x7d"⟩] ∧
      ((pairRun "hal.h" "hal.h").write (m := StateM FileTree) "out").run (.empty ["work"]) =
        (.ok ⟨["hal.h", "hal.h"], []⟩, pairTree "hal.h" "hal.h") ∧
      (pairTree "hal.h" "hal.h").read "out/hal.h" = .ok "void f() \x7b\n\t f();\n\x7d" ∧
      (((pairRun "hal.h" "hal.h").write (m := StateM FileTree) "out").run
        (pairTree "hal.h" "hal.h")).1 = .ok ⟨["hal.h", "hal.h"], []⟩ := by
  exact ⟨by decide +kernel, rfl, by decide +kernel, by decide +kernel,
    Prod.ext (by decide +kernel) rfl, by decide +kernel, by decide +kernel⟩

end Run
end HeaderWrap
