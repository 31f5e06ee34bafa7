import HeaderWrap.Proofs.Disk.Place
import HeaderWrap.Proofs.Run.Writing

/-! Which files a written run touches: those that the templates of its model name, and no others.
They are below the directory that the run is written to just if their paths lead there, and wherever
that is just if their paths are confined; the rules of models do not ask for that. -/
namespace HeaderWrap

def Model.templatePaths (m : Model) : List String := m.templates.flatMap TemplateEntry.paths

namespace Run
open Place (Below Apart)

private theorem writeOutputs_extends (directory : String) (os : List Output) (t : FileTree) :
    t.Extends ((writeOutputs (m := StateM FileTree) directory os).run t).2
      fun place => ∃ o ∈ os, place = t.place (Path.join directory o.path) := by
  induction os generalizing t with
  | nil => exact .refl t _
  | cons o os ih =>
    rw [writeOutputs, StateT.run_bind]
    have first := Disk.update_extends (Path.join directory o.path) o.content t
    generalize (Disk.update (m := StateM FileTree) (Path.join directory o.path) o.content).run t =
      updated at first ⊢
    obtain ⟨result, t₁⟩ := updated
    -- also an update that fails may have made directories
    have here : t.Extends t₁ fun place =>
        ∃ o' ∈ o :: os, place = t.place (Path.join directory o'.path) :=
      first.mono fun place leads => ⟨o, List.mem_cons_self, leads⟩
    cases result with
    | error f => exact here
    | ok u =>
      refine here.trans ((ih t₁).mono ?_)
      rintro _ ⟨o', ho', rfl⟩
      exact ⟨o', List.mem_cons_of_mem _ ho', first.place _⟩

private theorem write_extends (r : Run) (directory : String) (t : FileTree) :
    t.Extends ((r.write (m := StateM FileTree) directory).run t).2
      fun place => ∃ o ∈ r.outputs, place = t.place (Path.join directory o.path) := by
  unfold write
  split
  · exact writeOutputs_extends directory r.outputs t
  · exact .refl t _

def Within (r : Run) (directory : String) (t : FileTree) : Prop :=
  ∀ o ∈ r.outputs, ∃ place, t.Names (Path.join directory o.path) place ∧
    (t.textAt? place).isSome ∧ Below (t.place directory) place

/-- After a run is written, its files are below the directory just if their paths lead there. -/
theorem within_iff {r : Run} {directory : String} {t t' : FileTree} {w : Written}
    (ran : (r.write (m := StateM FileTree) directory).run t = (.ok w, t')) :
    r.Within directory t' ↔
      ∀ o ∈ r.outputs, Below (t.place directory) (t.place (Path.join directory o.path)) := by
  obtain ⟨-, lasts⟩ := writeOutputs_spec (writeOutputs_of_write ran).2
  have same (path : String) : t'.place path = t.place path := by
    have grown := write_extends r directory t
    rw [ran] at grown
    exact grown.place path
  refine forall₂_congr fun o ho => ⟨?_, fun below => ?_⟩
  · rintro ⟨place, names, -, below⟩
    rwa [FileTree.place_of_locate names.2, same, same] at below
  · obtain ⟨place, names, o', -, -, text⟩ := lasts o ho
    refine ⟨place, names, Option.isSome_of_eq_some text, ?_⟩
    rwa [FileTree.place_of_locate names.2, same, same]

/-- A text under a root reads the same, as long as nothing is written but below a directory that is
apart from the root. -/
theorem read_of_apart {t t' : FileTree} {directory root path text : String}
    (grown : t.Extends t' (Below (t.place directory)))
    (apart : Apart (t.place root) (t.place directory)) (confined : Path.Confined path)
    (holds : t.read (Path.join root path) = .ok text) :
    t'.read (Path.join root path) = .ok text := by
  obtain ⟨place, names, there⟩ := FileTree.read_eq_ok_iff.mp holds
  have below := Path.confined_iff.mp confined t root
  rw [← FileTree.place_of_locate names.2] at below
  exact FileTree.read_eq_ok_iff.mpr
    ⟨place, grown.names names, grown.textAt? (apart.not_below below) there⟩

/-- Whatever comes of writing a run, no file is new or changed but where a template path of the
model leads from the directory. A run that is written to the end has its files below the directory
just if all these paths lead there, which they do from every directory just if they are confined.
Then no other file is new or changed, and what is read from under a root that is apart from the
directory stays as it was. -/
theorem complete_confined_iff {m : Type → Type} [Monad m] [LawfulMonad m] (sources : Sources m)
    (registry : Registry) (model : Model) :
    ((∀ path ∈ model.templatePaths, Path.Confined path) ↔
      ∀ (t : FileTree) directory, ∀ path ∈ model.templatePaths,
        Below (t.place directory) (t.place (Path.join directory path))) ∧
    SatisfiesM (fun result => ∀ r, result = .ok r → ∀ directory (t t' : FileTree) outcome,
        (r.write (m := StateM FileTree) directory).run t = (outcome, t') →
          t.Extends t' (fun place => ∃ path ∈ model.templatePaths,
            place = t.place (Path.join directory path)) ∧
          (∀ w, outcome = .ok w → (r.Within directory t' ↔ ∀ path ∈ model.templatePaths,
            Below (t.place directory) (t.place (Path.join directory path)))) ∧
          ((∀ path ∈ model.templatePaths,
              Below (t.place directory) (t.place (Path.join directory path))) →
            t.Extends t' (Below (t.place directory)) ∧
            ∀ root path text, Apart (t.place root) (t.place directory) → Path.Confined path →
              t.read (Path.join root path) = .ok text → t'.read (Path.join root path) = .ok text))
      (complete model registry sources) := by
  constructor
  · exact ⟨fun confined t directory path hp => Path.confined_iff.mp (confined path hp) t directory,
      fun below path hp => Path.confined_iff.mpr fun t directory => below t directory path hp⟩
  · refine (complete_spec sources model registry).imp ?_
    intro result ran r ok directory t t' outcome written
    obtain ⟨r₀, loaded, rfl⟩ := ran r ok
    have grown := write_extends r₀.collect.render directory t
    rw [written] at grown
    have paths : r₀.collect.render.outputs.map Output.path = model.templatePaths :=
      loaded.paths_outputs
    have touched : t.Extends t' fun place => ∃ path ∈ model.templatePaths,
        place = t.place (Path.join directory path) := by
      refine grown.mono fun place ⟨o, ho, leads⟩ => ⟨o.path, ?_, leads⟩
      rw [← paths]
      exact List.mem_map_of_mem ho
    refine ⟨touched, fun w ended => ?_, fun below => ?_⟩
    · subst ended
      rw [within_iff written, ← paths, List.forall_mem_map]
    · have inside : t.Extends t' (Below (t.place directory)) := by
        refine touched.mono ?_
        rintro _ ⟨path, hp, rfl⟩
        exact below path hp
      exact ⟨inside, fun root path text => read_of_apart inside⟩

/-- Dots in a path do no harm as long as it stays below the directory. -/
theorem pair_confined :
    complete (pair "misc/../hal.h" "./hal.cpp") ∅ pairSources =
        .ok (pairRun "misc/../hal.h" "./hal.cpp") ∧
      (pairRun "misc/../hal.h" "./hal.cpp").Within "out" (pairTree "misc/../hal.h" "./hal.cpp") := by
  have ran : complete (pair "misc/../hal.h" "./hal.cpp") ∅ pairSources =
    .ok (pairRun "misc/../hal.h" "./hal.cpp") := rfl
  have written :
      ((pairRun "misc/../hal.h" "./hal.cpp").write (m := StateM FileTree) "out").run
        (.empty ["work"]) =
      (.ok ⟨["misc/../hal.h", "./hal.cpp"], []⟩, pairTree "misc/../hal.h" "./hal.cpp") :=
    Prod.ext (by decide +kernel) rfl
  obtain ⟨leads, spec⟩ := complete_confined_iff pairSources ∅ (pair "misc/../hal.h" "./hal.cpp")
  obtain ⟨-, within, -⟩ := SatisfiesM_Id_eq.mp spec _ ran "out" _ _ _ written
  refine ⟨ran, (within _ rfl).mpr (leads.mp ?_ _ _)⟩
  have paths : (pair "misc/../hal.h" "./hal.cpp").templatePaths =
    ["misc/../hal.h", "./hal.cpp"] := rfl
  rw [paths, List.forall_mem_cons, List.forall_mem_singleton]
  exact ⟨by decide +kernel, by decide +kernel⟩

def besideTree : FileTree where
  workingDirectory := ["work"]
  nodes := Table.ofList [([], .directory), (["work"], .directory),
    (["work", "src"], .directory), (["work", "src", "lv_hal.h"], .file "void f();".toUTF8),
    (["work", "template"], .directory),
    (["work", "template", "hal.cpp"], .file "%%misc%%".toUTF8),
    (["work", "hal.h"], .file "%%misc%%".toUTF8)]

/-- A path that leads above the template directory passes the checks of a model. The file is
written beside the output directory, over the template that was read. -/
theorem template_overwritten :
    (pair "../hal.h" "hal.cpp").violation? = none ∧
      (complete (m := StateM FileTree) (pair "../hal.h" "hal.cpp") ∅
          (.ofDirectories "src" "template")).run besideTree =
        (.ok (pairRun "../hal.h" "hal.cpp"), besideTree) ∧
      Apart (besideTree.place "out") (besideTree.place "src") ∧
      Apart (besideTree.place "out") (besideTree.place "template") ∧
      besideTree.read "template/../hal.h" = .ok "%%misc%%" ∧
      ∃ t, ((pairRun "../hal.h" "hal.cpp").write (m := StateM FileTree) "out").run besideTree =
          (.ok ⟨["../hal.h", "hal.cpp"], []⟩, t) ∧
        t.read "template/../hal.h" = .ok "void f();" ∧
        ¬ Below (t.place "out") (t.place "out/../hal.h") := by
  exact ⟨by decide +kernel, rfl, by decide +kernel, by decide +kernel, by decide +kernel, _,
    Prod.ext (by decide +kernel) rfl, by decide +kernel, by decide +kernel⟩

end Run
end HeaderWrap
