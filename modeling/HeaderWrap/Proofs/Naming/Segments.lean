import HeaderWrap.Group
import HeaderWrap.Proofs.Naming.Prefix

/-! The entity prefix of a type is the longest one: no run of segments that begins the type reaches
further. -/
namespace HeaderWrap.Naming

private theorem prefix_segments {run s : List Char} (h : Segmented run) (start : run <+: s) :
    run <+: segments [] s := by
  obtain ⟨r, rfl⟩ := start
  rw [segments_run h]
  exact List.prefix_append _ _

private theorem segments_start (s : List Char) : segments [] s <+: s := by
  obtain ⟨rest, split, -⟩ := segments_rest (List.forall_mem_nil _) s
  exact ⟨rest, split.symm⟩

/-- What is read off a text is the longest run of segments that begins it. -/
theorem segments_eq_iff {s run : List Char} : segments [] s = run ↔
    Segmented run ∧ run <+: s ∧ ∀ other, Segmented other → other <+: s → other <+: run := by
  constructor
  · rintro rfl
    refine ⟨segmented_segments (List.forall_mem_nil _) s, segments_start s, ?_⟩
    exact fun other h start => prefix_segments h start
  · rintro ⟨h, start, longest⟩
    have inside := longest _ (segmented_segments (List.forall_mem_nil _) s) (segments_start s)
    exact inside.eq_of_length_le (prefix_segments h start).length_le

/-- A type has an entity prefix just if a run of segments begins it. The prefix is the longest such
run and its own prefix, so that a class of the type asks for the functions with that prefix. -/
theorem entityPrefix?_longest (type : String) :
    ((entityPrefix? type).isSome ↔
      ∃ run, run ≠ [] ∧ Segmented run ∧ run <+: type.toList) ∧
    ∀ p, (entityPrefix? type = some p ↔
        p ≠ "" ∧ Segmented p.toList ∧ p.toList <+: type.toList ∧
          ∀ run, Segmented run → run <+: type.toList → run <+: p.toList) ∧
      (entityPrefix? type = some p →
        entityPrefix? p = some p ∧
          ∀ name, (Group.ofKind name (.wrapper type)).target? = some p) := by
  refine ⟨?_, fun p => ⟨?_, fun found => ⟨entityPrefix?_entityPrefix? found, fun name => ?_⟩⟩⟩
  · rw [← Option.ne_none_iff_isSome, ne_eq, entityPrefix?_eq_none_iff]
    constructor
    · intro full
      exact ⟨_, full, segmented_segments (List.forall_mem_nil _) _, segments_start _⟩
    · rintro ⟨run, full, h, start⟩ none
      apply full
      rw [← List.prefix_nil, ← none]
      exact prefix_segments h start
  · rw [entityPrefix?_eq_some_iff, segments_eq_iff]
  · rw [Group.target?, Group.ofKind, Group.type?, Option.map_some, found, Option.getD_some]

/-- A second underscore and an open segment end the run. -/
example : entityPrefix? "lv_obj__x" = some "lv_obj_" ∧ entityPrefix? "_lv_t" = none := by decide

end HeaderWrap.Naming
