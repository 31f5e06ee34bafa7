import HeaderWrap.Model.Validation

/-! What collection may rely on in a consistent model: every class has a name of its own. -/
namespace HeaderWrap.Model

private theorem classViolation?_eq_none_iff {before : List ClassEntry} {c : ClassEntry} :
    classViolation? before c = none ↔
      Naming.fault? c.name = none ∧ Text.allBlank c.type.toList = false ∧
        c.name ∉ before.map ClassEntry.name := by
  have declared : before.any (·.name == c.name) ↔ c.name ∈ before.map ClassEntry.name := by
    rw [List.any_eq_true, List.mem_map]
    exact exists_congr fun b => and_congr_right fun _ => beq_iff_eq
  simp only [classViolation?, nameViolation?, Option.orElse_eq_orElse, Option.orElse_eq_or,
    Option.or_eq_none_iff, Option.map_eq_none_iff, ← declared]
  split <;> simp_all

private theorem nodup_of_classesViolation? {before cs : List ClassEntry}
    (h : classesViolation? before cs = none) (nodup : (before.map ClassEntry.name).Nodup) :
    ((before ++ cs).map ClassEntry.name).Nodup := by
  induction cs generalizing before with
  | nil => rwa [List.append_nil]
  | cons c cs ih =>
    simp only [classesViolation?, Option.orElse_eq_orElse, Option.orElse_eq_or,
      Option.or_eq_none_iff] at h
    obtain ⟨-, -, fresh⟩ := classViolation?_eq_none_iff.mp h.1
    rw [List.append_cons]
    refine ih h.2 ?_
    rw [List.map_append, List.nodup_append]
    refine ⟨nodup, by simp, fun a ha b hb hab => ?_⟩
    obtain rfl : b = c.name := by simpa using hb
    exact fresh (hab ▸ ha)

variable {m : Model}

theorem violation?_eq_none_iff :
    m.violation? = none ↔ classesViolation? [] m.classes = none ∧
      (∀ h ∈ m.headers, headerViolation? m h = none) ∧
      (∀ t ∈ m.templates, templateViolation? m t = none) ∧
      ∀ e ∈ m.types.entries, typeViolation? e.1 e.2 = none := by
  simp only [violation?, Option.orElse_eq_orElse, Option.orElse_eq_or, Option.or_eq_none_iff,
    List.findSome?_eq_none_iff]

/-- No two classes of a consistent model share a name. -/
theorem nodup_class_names (valid : m.violation? = none) :
    (m.classes.map ClassEntry.name).Nodup :=
  nodup_of_classesViolation? (violation?_eq_none_iff.mp valid).1 List.nodup_nil

theorem class?_isSome_iff {name : String} :
    (m.class? name).isSome ↔ name ∈ m.classes.map ClassEntry.name := by
  rw [class?, List.find?_isSome, List.mem_map]
  exact exists_congr fun c => and_congr_right fun _ => beq_iff_eq

/-- The templates of a consistent model list declared classes only. -/
theorem listed_class (valid : m.violation? = none) {t : TemplateEntry} (ht : t ∈ m.templates)
    {name : String} (listed : name ∈ t.classes) : name ∈ m.classes.map ClassEntry.name := by
  have rule := (violation?_eq_none_iff.mp valid).2.2.1 t ht
  simp only [templateViolation?, Option.orElse_eq_orElse, Option.orElse_eq_or,
    Option.or_eq_none_iff, List.findSome?_eq_none_iff] at rule
  have known := rule.2 name listed
  simp only [listedViolation?, Option.orElse_eq_orElse, Option.orElse_eq_or,
    Option.or_eq_none_iff, ite_eq_right_iff, reduceCtorEq, imp_false] at known
  exact class?_isSome_iff.mp (Option.ne_none_iff_isSome.mp (by simpa using known.2))

/-- No group of free functions in a consistent model bears the name of a class. -/
theorem group_ne_class (valid : m.violation? = none) {h : HeaderEntry} (hh : h ∈ m.headers) :
    h.group ∉ m.classes.map ClassEntry.name := by
  have rule := (violation?_eq_none_iff.mp valid).2.1 h hh
  simp only [headerViolation?, Option.orElse_eq_orElse, Option.orElse_eq_or,
    Option.or_eq_none_iff] at rule
  intro mem
  simp [class?_isSome_iff.mpr mem] at rule

end HeaderWrap.Model
