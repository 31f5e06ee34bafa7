import Mathlib.Data.List.Basic
import HeaderWrap.Proofs.Function.Rendering
import HeaderWrap.Proofs.Lists
import HeaderWrap.Proofs.Run.Distribution
import HeaderWrap.Report.Check
import HeaderWrap.Report.Listing
import HeaderWrap.Run.Render

/-! Counted, listed and rendered functions are the same: a group renders all that it holds. -/
namespace HeaderWrap

namespace Group

def IsSorted (g : Group) : Prop := ∀ p ∈ g.functions, p.2.isOf p.1

namespace IsSorted
variable {g : Group}

theorem declarations (sorted : g.IsSorted) (r : Rendering) :
    (g.declarations r).map some = g.functions.map fun p => p.2.declaration? p.1 r :=
  map_some_filterMap fun p hp => by simp [Function.declaration?, sorted p hp]

theorem definitions (sorted : g.IsSorted) (r : Rendering) :
    (g.definitions r).map some = g.functions.map fun p => p.2.definition? p.1 g.owner? r :=
  map_some_filterMap fun p hp => by simp [Function.definition?, sorted p hp]

private theorem declarations_eq (sorted : g.IsSorted) (r : Rendering) :
    g.declarations r = g.functions.map fun p => p.2.signatureLine p.1 none r ++ ";" :=
  List.filterMap_eq_map_iff_forall_eq_some.mpr fun p hp => if_pos (sorted p hp)

private theorem definitions_eq (sorted : g.IsSorted) (r : Rendering) :
    g.definitions r = g.functions.map fun p => p.2.signatureLine p.1 g.owner? r ++ " \x7b\n" ++
      r.options.bodyIndent ++ p.2.statement p.1 r ++ "\n\x7d" :=
  List.filterMap_eq_map_iff_forall_eq_some.mpr fun p hp =>
    (p.2.definition?_eq p.1 g.owner? r).trans (if_pos (sorted p hp))

end IsSorted
end Group

namespace Run

private theorem isOf_of_mem_claimed {registry : Registry} {headers : List LoadedHeader}
    {target : Option String} :
    ∀ p ∈ (claimed registry headers target).map (target, ·), p.2.isOf p.1 := by
  intro p hp
  obtain ⟨f, hf, rfl⟩ := List.mem_map.mp hp
  exact beq_iff_eq.mpr (mem_claimed.mp hf).2

/-- Collection adds every function where it belongs. -/
theorem Ready.isSorted {r : Run} (ready : r.Ready) {g : Group}
    (hg : g ∈ r.collect.groups.values) : g.IsSorted := by
  rcases ready.mem_values.mp hg with ⟨c, -, rfl⟩ | ⟨h, -, rfl⟩
  · rw [Group.IsSorted, functions_classGroup]
    exact isOf_of_mem_claimed
  · rw [Group.IsSorted, functions_freeGroup]
    exact isOf_of_mem_claimed

/-- No text is empty: each function that a group holds is declared by its head and a semicolon, and
defined by its head, qualified by the owner, and a body of one statement. -/
theorem collect_texts (r : Run) (consistent : r.model.violation? = none)
    (loaded : r.headers.map LoadedHeader.entry = r.model.headers) :
    ∀ g ∈ r.collect.groups.values,
      g.declarations r.rendering =
          g.functions.map (fun p => p.2.signatureLine p.1 none r.rendering ++ ";") ∧
        g.definitions r.rendering = g.functions.map fun p =>
          p.2.signatureLine p.1 g.owner? r.rendering ++ " \x7b\n" ++ r.model.options.bodyIndent ++
            p.2.statement p.1 r.rendering ++ "\n\x7d" := by
  intro g hg
  have sorted : g.IsSorted := Ready.isSorted ⟨consistent, loaded⟩ hg
  exact ⟨sorted.declarations_eq _, sorted.definitions_eq _⟩

end Run
end HeaderWrap
