import HeaderWrap.Table

/-! Laws of tables: which keys an operation keeps, and a table read back from its keys. -/
namespace HeaderWrap.Table
variable {κ ν : Type} [DecidableEq κ]

theorem get?_eq_none_iff {t : Table κ ν} {k : κ} : t.get? k = none ↔ k ∉ t.keys := by
  simp only [get?, keys, List.lookup_eq_none_iff, List.mem_map, not_exists, not_and]
  constructor
  · intro h e he hk
    have hb := h e he
    simp [hk] at hb
  · intro h e he
    simpa using fun hk : k = e.1 => h e he hk.symm

theorem mem_keys_of_get? {t : Table κ ν} {k : κ} {v : ν} (h : t.get? k = some v) :
    k ∈ t.keys := by
  refine Decidable.byContradiction fun hk => ?_
  rw [get?_eq_none_iff.mpr hk] at h
  contradiction

theorem mem_entries_of_get? {t : Table κ ν} {k : κ} {v : ν} (h : t.get? k = some v) :
    (k, v) ∈ t.entries := by
  obtain ⟨before, after, entries, -⟩ := List.lookup_eq_some_iff.mp h
  rw [entries]
  exact List.mem_append_right before List.mem_cons_self

theorem keys_modify (t : Table κ ν) (k : κ) (f : ν → ν) : (t.modify k f).keys = t.keys := by
  unfold modify
  cases h : t.get? k with
  | none => rfl
  | some v => exact (keys_upsert t k _).trans (if_pos (mem_keys_of_get? h))

/-- Only the value of the given key is changed. -/
theorem get?_modify (t : Table κ ν) (k k' : κ) (f : ν → ν) :
    (t.modify k f).get? k' = if k' = k then (t.get? k).map f else t.get? k' := by
  unfold modify
  cases h : t.get? k with
  | none =>
    by_cases hk : k' = k
    · rw [if_pos hk, hk]
      exact h
    · rw [if_neg hk]
  | some v => exact get?_insert t k k' (f v)

/-- A table is known by its keys and the values under them. -/
theorem entries_eq {t : Table κ ν} {l : List (κ × ν)} (keys : t.keys = l.map Prod.fst)
    (get : ∀ e ∈ l, t.get? e.1 = some e.2) : t.entries = l := by
  obtain ⟨es, nodup⟩ := t
  simp only [Table.keys, get?] at keys get
  change es = l
  induction es generalizing l with
  | nil =>
    cases l with
    | nil => rfl
    | cons e l => simp at keys
  | cons e es ih =>
    cases l with
    | nil => simp at keys
    | cons e' l =>
      obtain ⟨hk, hks⟩ := List.cons.inj keys
      obtain ⟨fresh, nodup⟩ := List.nodup_cons.mp nodup
      have head : e.2 = e'.2 := by
        have h := get e' List.mem_cons_self
        rw [← hk, List.lookup_cons_self] at h
        exact Option.some.inj h
      have tail : ∀ d ∈ l, es.lookup d.1 = some d.2 := by
        intro d hd
        have hne : (d.1 == e.1) = false := by
          refine beq_eq_false_iff_ne.mpr fun heq => fresh ?_
          rw [← heq]
          exact hks ▸ List.mem_map_of_mem hd
        have h := get d (List.mem_cons_of_mem _ hd)
        rwa [List.lookup_cons, hne] at h
      rw [ih nodup hks tail, Prod.ext hk head]

end HeaderWrap.Table
