import HeaderWrap.Naming

/-! Entity prefixes: a type is its prefix and a rest that begins no segment, and a prefix is its
own prefix. -/
namespace HeaderWrap.Naming

private theorem segments_append {segment : List Char} (seg : ∀ c ∈ segment, c.isAlphanum)
    (read s : List Char) : segments read (segment ++ s) = segments (read ++ segment) s := by
  induction segment generalizing read with
  | nil => rw [List.nil_append, List.append_nil]
  | cons c segment ih =>
    rw [List.cons_append, segments, if_pos (seg c List.mem_cons_self),
      ih fun x hx => seg x (List.mem_cons_of_mem _ hx), List.append_assoc]
    rfl

private theorem segments_underscore {segment : List Char} (full : segment ≠ []) (s : List Char) :
    segments segment ('_' :: s) = segment ++ '_' :: segments [] s := by
  rw [segments, if_neg (by decide), if_pos ⟨rfl, full⟩]

/-- Behind the segments comes a rest that begins none. -/
theorem segments_rest {segment : List Char} (seg : ∀ c ∈ segment, c.isAlphanum) (s : List Char) :
    ∃ rest, segment ++ s = segments segment s ++ rest ∧ segments [] rest = [] := by
  fun_induction segments segment s with
  | case1 segment => exact ⟨segment, by simp, by simpa [segments] using segments_append seg [] []⟩
  | case2 segment c s alnum ih =>
    obtain ⟨rest, hs, none⟩ := ih fun x hx => by
      rcases List.mem_append.mp hx with hx | hx
      · exact seg x hx
      · obtain rfl : x = c := by simpa using hx
        exact alnum
    exact ⟨rest, by rw [← hs, List.append_assoc]; rfl, none⟩
  | case3 segment c s _ close ih =>
    obtain ⟨rest, hs, none⟩ := ih (by simp)
    rw [List.nil_append] at hs
    exact ⟨rest, by rw [close.1, List.append_assoc, List.cons_append, ← hs], none⟩
  | case4 segment c s alnum close =>
    refine ⟨segment ++ c :: s, rfl, ?_⟩
    rw [segments_append seg, List.nil_append, segments, if_neg alnum, if_neg close]

/-- Segments one behind the other, each of letters and digits and closed by one underscore. -/
inductive Segmented : List Char → Prop
  | nil : Segmented []
  | cons {segment run : List Char} (full : segment ≠ []) (seg : ∀ c ∈ segment, c.isAlphanum)
      (tail : Segmented run) : Segmented (segment ++ '_' :: run)

/-- What is read off a text is a run of segments. -/
theorem segmented_segments {segment : List Char} (seg : ∀ c ∈ segment, c.isAlphanum)
    (s : List Char) : Segmented (segments segment s) := by
  induction s generalizing segment with
  | nil => exact .nil
  | cons c s ih =>
    rw [segments]
    split
    · rename_i alnum
      apply ih
      intro x hx
      rcases List.mem_append.mp hx with hx | hx
      · exact seg x hx
      · obtain rfl : x = c := List.mem_singleton.mp hx
        exact alnum
    · split
      · rename_i close
        exact .cons close.2 seg (ih (List.forall_mem_nil _))
      · exact .nil

/-- A run of segments in front of a text is read whole, and reading goes on behind it. -/
theorem segments_run {run : List Char} (h : Segmented run) (s : List Char) :
    segments [] (run ++ s) = run ++ segments [] s := by
  induction h with
  | nil => rfl
  | cons full seg tail ih =>
    rw [List.append_assoc, List.cons_append, segments_append seg, List.nil_append,
      segments_underscore full, ih, List.append_assoc, List.cons_append]

private theorem segments_segments {segment : List Char} (seg : ∀ c ∈ segment, c.isAlphanum)
    (s : List Char) : segments [] (segments segment s) = segments segment s := by
  have whole := segments_run (segmented_segments seg s) []
  rwa [List.append_nil, segments, List.append_nil] at whole

theorem entityPrefix?_eq_some_iff {type p : String} :
    entityPrefix? type = some p ↔ p ≠ "" ∧ segments [] type.toList = p.toList := by
  have empty : p ≠ "" ↔ p.toList ≠ [] := not_congr String.toList_eq_nil_iff.symm
  rw [empty, entityPrefix?]
  split
  · rename_i run
    rw [run]
    exact ⟨nofun, fun h => absurd h.2.symm h.1⟩
  · rename_i full
    rw [Option.some.injEq]
    constructor
    · rintro rfl
      rw [String.toList_ofList]
      exact ⟨full, rfl⟩
    · rintro ⟨-, h⟩
      rw [h, String.ofList_toList]

theorem entityPrefix?_eq_none_iff {type : String} :
    entityPrefix? type = none ↔ segments [] type.toList = [] := by
  unfold entityPrefix?
  split
  · simp_all
  · simp_all

/-- A type is its prefix and a rest without one. -/
theorem entityPrefix?_rest {type p : String} (h : entityPrefix? type = some p) :
    ∃ rest, type = p ++ rest ∧ entityPrefix? rest = none := by
  obtain ⟨-, run⟩ := entityPrefix?_eq_some_iff.mp h
  obtain ⟨rest, hs, none⟩ := segments_rest (List.forall_mem_nil _) type.toList
  refine ⟨String.ofList rest, ?_, ?_⟩
  · rw [run, List.nil_append] at hs
    rw [← String.toList_inj, String.toList_append, String.toList_ofList, hs]
  · rw [entityPrefix?_eq_none_iff, String.toList_ofList, none]

example : entityPrefix? "lv_timer_t" = some "lv_timer_" := by decide

/-- A prefix is its own prefix. -/
theorem entityPrefix?_entityPrefix? {type p : String} (h : entityPrefix? type = some p) :
    entityPrefix? p = some p := by
  obtain ⟨full, run⟩ := entityPrefix?_eq_some_iff.mp h
  refine entityPrefix?_eq_some_iff.mpr ⟨full, ?_⟩
  rw [← run]
  exact segments_segments (List.forall_mem_nil _) type.toList

end HeaderWrap.Naming
