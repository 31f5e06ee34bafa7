/-! Laws of lists: cutting at a character, keeping first occurrences, building piece by piece. -/
namespace HeaderWrap

/-- No part holds the character that a list is cut at. -/
theorem not_mem_of_mem_splitOn {a : Char} {s w : List Char} (h : w ∈ s.splitOn a) : a ∉ w := by
  induction s generalizing w with
  | nil => simp_all
  | cons x s ih =>
    rw [List.splitOn_cons_eq_if_modifyHead] at h
    by_cases hx : x = a
    · rcases List.mem_cons.mp (by simpa [hx] using h) with rfl | h
      · simp
      · exact ih h
    · obtain ⟨v, vs, hv⟩ := List.exists_cons_of_ne_nil (List.splitOn_ne_nil a s)
      rw [hv] at h ih
      rcases List.mem_cons.mp (by simpa [hx] using h) with rfl | h
      · have hv' : a ∉ v := ih List.mem_cons_self
        simp [hv', Ne.symm hx]
      · exact ih (List.mem_cons_of_mem _ h)

theorem splitOn_append_of_not_mem {a : Char} {b : List Char} (h : a ∉ b) (s : List Char) :
    (b ++ s).splitOn a = (s.splitOn a).modifyHead (b ++ ·) := by
  induction b with
  | nil =>
    cases hs : s.splitOn a with
    | nil => exact absurd hs (List.splitOn_ne_nil a s)
    | cons => simp [hs]
  | cons c b ih =>
    rw [List.mem_cons, not_or] at h
    rw [List.cons_append, List.splitOn_cons_eq_if_modifyHead, ih h.2, List.modifyHead_modifyHead]
    simp [Ne.symm h.1, Function.comp_def]

/-- Behind the first of some parts each other one follows a separator. -/
theorem intercalate_cons {α : Type} (s a : List α) (l : List (List α)) :
    List.intercalate s (a :: l) = a ++ l.flatMap (s ++ ·) := by
  induction l generalizing a with
  | nil => simp
  | cons b l ih => simp only [List.intercalate_cons_cons, ih, List.flatMap_cons, List.append_assoc]

theorem mem_intercalate {α : Type} {s : List α} {l : List (List α)} {a : α}
    (h : a ∈ List.intercalate s l) : a ∈ s ∨ ∃ w ∈ l, a ∈ w := by
  cases l with
  | nil => simp at h
  | cons v l =>
    simp only [intercalate_cons, List.mem_append, List.mem_flatMap] at h
    rcases h with h | ⟨w, hw, h | h⟩
    · exact .inr ⟨v, List.mem_cons_self, h⟩
    · exact .inl h
    · exact .inr ⟨w, List.mem_cons_of_mem _ hw, h⟩

theorem mem_intercalate_of_mem {α : Type} (s : List α) {l : List (List α)} {w : List α} {a : α}
    (hw : w ∈ l) (ha : a ∈ w) : a ∈ List.intercalate s l := by
  cases l with
  | nil => contradiction
  | cons v l =>
    rw [intercalate_cons]
    rcases List.mem_cons.mp hw with rfl | hw
    · exact List.mem_append_left _ ha
    · exact List.mem_append_right _ (List.mem_flatMap.mpr ⟨w, hw, List.mem_append_right s ha⟩)

/-- Where a list is split by a test does not depend on what stands behind. -/
theorem span_append {α : Type} {p : α → Bool} {l : List α} {a : α} {r : List α}
    (h : l.dropWhile p = a :: r) (s : List α) :
    (l ++ s).takeWhile p = l.takeWhile p ∧ (l ++ s).dropWhile p = a :: (r ++ s) := by
  induction l with
  | nil => contradiction
  | cons b l ih =>
    by_cases hb : p b
    · rw [List.dropWhile_cons_of_pos hb] at h
      rw [List.cons_append, List.takeWhile_cons_of_pos hb, List.takeWhile_cons_of_pos hb,
        List.dropWhile_cons_of_pos hb, (ih h).1]
      exact ⟨rfl, (ih h).2⟩
    · rw [List.dropWhile_cons_of_neg hb] at h
      obtain ⟨rfl, rfl⟩ := List.cons.inj h
      rw [List.cons_append, List.takeWhile_cons_of_neg hb, List.takeWhile_cons_of_neg hb,
        List.dropWhile_cons_of_neg hb]
      exact ⟨rfl, rfl⟩

/-- What begins a list without an element begins what stands in front of the element. -/
theorem prefix_of_not_mem {α : Type} {a : α} {x w r : List α} (apart : a ∉ x)
    (h : x <+: w ++ a :: r) : x <+: w := by
  induction w generalizing x with
  | nil =>
    cases x with
    | nil => exact List.nil_prefix
    | cons b x =>
      obtain ⟨rfl, -⟩ := List.cons_prefix_cons.mp h
      exact absurd List.mem_cons_self apart
  | cons c w ih =>
    cases x with
    | nil => exact List.nil_prefix
    | cons b x =>
      obtain ⟨rfl, rest⟩ := List.cons_prefix_cons.mp h
      exact List.cons_prefix_cons.mpr ⟨rfl, ih (mt (List.mem_cons_of_mem b) apart) rest⟩

/-- What passes a test at the end of a list, and what stands in front of it. -/
theorem reverse_split {α : Type} (p : α → Bool) (l : List α) :
    (l.reverse.dropWhile p).reverse ++ (l.reverse.takeWhile p).reverse = l := by
  rw [← List.reverse_append, List.takeWhile_append_dropWhile, List.reverse_reverse]

/-- Behind the last element that passes a test none passes it. -/
theorem split_last_filter {α : Type} {p : α → Bool} {l : List α} {a : α}
    (h : (l.filter p).getLast? = some a) :
    ∃ before after, l = before ++ a :: after ∧ ∀ b ∈ after, p b = false := by
  rw [List.getLast?_filter, List.find?_eq_some_iff_append] at h
  obtain ⟨-, after, before, split, others⟩ := h
  refine ⟨before.reverse, after.reverse, ?_, fun b hb => ?_⟩
  · rw [← List.reverse_reverse l, split]
    simp
  · simpa using others b (List.mem_reverse.mp hb)

/-- A list that nothing is filtered out of. -/
theorem map_some_filterMap {α β : Type} {f : α → Option β} {l : List α}
    (all : ∀ a ∈ l, (f a).isSome) : (l.filterMap f).map some = l.map f := by
  rw [List.map_filterMap_some_eq_filter_map_isSome, List.filter_eq_self]
  intro b hb
  obtain ⟨a, ha, rfl⟩ := List.mem_map.mp hb
  exact all a ha

theorem eraseDups_concat (l : List String) (a : String) :
    (l ++ [a]).eraseDups = if a ∈ l then l.eraseDups else l.eraseDups ++ [a] := by
  rw [List.eraseDups_append]
  split
  · rename_i h
    simp [List.removeAll, h]
  · rename_i h
    simp [List.removeAll, h, List.eraseDups_cons]

theorem nodup_eraseDups (l : List String) : l.eraseDups.Nodup := by
  match l with
  | [] => exact List.nodup_nil
  | a :: l =>
    rw [List.eraseDups_cons, List.nodup_cons, List.mem_eraseDups]
    refine ⟨?_, nodup_eraseDups _⟩
    intro h
    simpa using (List.mem_filter.mp h).2
termination_by l.length
decreasing_by exact Nat.lt_succ_of_le (List.length_filter_le _ _)

theorem findSome?_cons_eq_or {α β : Type} (f : α → Option β) (a : α) (l : List α) :
    (a :: l).findSome? f = (f a).or (l.findSome? f) := by
  rw [List.findSome?_cons]
  cases f a <;> rfl

/-- What is found in a list built piece by piece is found in the first piece that has any. -/
theorem findSome?_flatMap {α β γ : Type} (f : α → List β) (g : β → Option γ) (l : List α) :
    (l.flatMap f).findSome? g = l.findSome? fun a => (f a).findSome? g := by
  induction l with
  | nil => rfl
  | cons a l ih =>
    rw [List.flatMap_cons, List.findSome?_append, ih, findSome?_cons_eq_or]

/-- Nothing occurs twice just if nothing has occurred before. -/
theorem nodup_map_iff_take {α β : Type} {f : α → β} {l : List α} :
    (l.map f).Nodup ↔ ∀ p ∈ l.zipIdx, f p.1 ∉ (l.take p.2).map f := by
  rw [List.Nodup, List.pairwise_map, List.pairwise_iff_getElem]
  constructor
  · rintro differ ⟨b, j⟩ mem found
    obtain ⟨hj, rfl⟩ := List.getElem?_eq_some_iff.mp (List.mk_mem_zipIdx_iff_getElem?.mp mem)
    obtain ⟨a, ha, same⟩ := List.mem_map.mp found
    obtain ⟨i, hi, rfl⟩ := List.mem_take_iff_getElem.mp ha
    exact differ i j (by omega) hj (by omega) same
  · intro fresh i j hi hj before same
    refine fresh (l[j], j) (List.mk_mem_zipIdx_iff_getElem?.mpr (List.getElem?_eq_getElem hj)) ?_
    refine List.mem_map.mpr ⟨l[i], ?_, same⟩
    exact List.mem_take_iff_getElem.mpr ⟨i, by omega, rfl⟩

/-- Two lists built piece by piece are equal just if all pieces are, provided that no piece of the
one is longer than that of the other. -/
theorem flatMap_eq_iff {α β : Type} {f g : α → List β} {l : List α}
    (shorter : ∀ a ∈ l, (f a).length ≤ (g a).length) :
    l.flatMap f = l.flatMap g ↔ ∀ a ∈ l, f a = g a := by
  have total {l : List α} (h : ∀ a ∈ l, (f a).length ≤ (g a).length) :
      (l.flatMap f).length ≤ (l.flatMap g).length := by
    induction l with
    | nil => exact Nat.le_refl 0
    | cons a l ih =>
      have ha := h a List.mem_cons_self
      have hl := ih fun b hb => h b (List.mem_cons_of_mem _ hb)
      simp only [List.flatMap_cons, List.length_append]
      omega
  induction l with
  | nil => simp
  | cons a l ih =>
    have ha := shorter a List.mem_cons_self
    have hl : ∀ b ∈ l, (f b).length ≤ (g b).length := fun b hb =>
      shorter b (List.mem_cons_of_mem _ hb)
    rw [List.flatMap_cons, List.flatMap_cons, List.forall_mem_cons]
    constructor
    · intro h
      have lengths := congrArg List.length h
      have rest := total hl
      simp only [List.length_append] at lengths
      obtain ⟨head, tail⟩ := List.append_inj h (by omega)
      exact ⟨head, (ih hl).mp tail⟩
    · rintro ⟨head, tail⟩
      rw [head, (ih hl).mpr tail]

end HeaderWrap
