import HeaderWrap.Function
import HeaderWrap.Proofs.Naming.Prefix
import HeaderWrap.Proofs.Text.Replace

/-! Members: their first parameter is the wrapped handle, and their entity prefix and their method
name spell the C name, unless the prefix occurs in it again. -/
namespace HeaderWrap.Function
open Text

variable {f : Function} {p : String}

/-- The prefix of a function is that of the type of its first parameter. -/
theorem first_of_prefix (own : f.entityPrefix? = some p) :
    ∃ first rest, f.params = first :: rest ∧ first.isResolved ∧
      Naming.entityPrefix? first.baseType = some p := by
  rw [entityPrefix?] at own
  cases params : f.params with
  | nil => simp [params] at own
  | cons first rest =>
    simp only [params, List.head?_cons] at own
    split at own
    · rename_i resolved
      exact ⟨first, rest, rfl, resolved, own⟩
    · contradiction

private theorem prefix_ne_empty (own : f.entityPrefix? = some p) : p ≠ "" := by
  obtain ⟨first, rest, -, -, type⟩ := first_of_prefix own
  exact (Naming.entityPrefix?_eq_some_iff.mp type).1

theorem isMember_iff : f.isMember ↔ ∃ p, f.entityPrefix? = some p ∧ p.toList <+: f.name.toList := by
  rw [isMember]
  cases f.entityPrefix? with
  | none => simp
  | some p => simp

private theorem toList_name (own : f.entityPrefix? = some p) (member : f.isMember) :
    f.name.toList = p.toList ++ f.name.toList.drop p.toList.length := by
  obtain ⟨q, same, rest, name⟩ := isMember_iff.mp member
  obtain rfl := Option.some.inj (own.symm.trans same)
  rw [← name, List.drop_left]

/-- The method name of a member is what follows the prefix in the name, less the prefix where it
occurs there. -/
theorem toList_methodName (own : f.entityPrefix? = some p) (member : f.isMember) :
    f.methodName.toList =
      replaceFrom p.toList [] 0 (f.name.toList.drop p.toList.length) := by
  have full := prefix_ne_empty own
  have chars : p.toList ≠ [] := fun h => full (String.toList_eq_nil_iff.mp h)
  have start := replaceFrom_append chars [] (f.name.toList.drop p.toList.length)
  rw [← toList_name own member, List.nil_append] at start
  simpa [methodName, own, toList_replaceAll full] using start

def Recurs (p name : String) : Prop := p.toList <:+: name.toList.drop p.toList.length

instance (p name : String) : Decidable (Recurs p name) :=
  inferInstanceAs (Decidable (p.toList <:+: name.toList.drop p.toList.length))

private theorem prefix_methodName_eq_iff (own : f.entityPrefix? = some p) (member : f.isMember) :
    p ++ f.methodName = f.name ↔ ¬ Recurs p f.name := by
  have chars : p.toList ≠ [] := fun h => prefix_ne_empty own (String.toList_eq_nil_iff.mp h)
  have name := toList_name own member
  rw [← String.toList_inj, String.toList_append, toList_methodName own member, Recurs,
    ← replaceFrom_nil_eq_self_iff chars]
  constructor
  · intro spelt
    exact List.append_cancel_left (spelt.trans name)
  · intro kept
    rw [kept, ← name]

/-- A name has the method name that it has with the prefix written twice. -/
theorem methodName_twice (own : f.entityPrefix? = some p) (member : f.isMember) :
    let g : Function := { f with name := p ++ f.name }
    g.entityPrefix? = some p ∧ g.isMember ∧ g.name ≠ f.name ∧ g.methodName = f.methodName := by
  intro g
  have chars : p.toList ≠ [] := fun h => prefix_ne_empty own (String.toList_eq_nil_iff.mp h)
  have own' : g.entityPrefix? = some p := own
  have name : g.name.toList = p.toList ++ f.name.toList := String.toList_append
  have member' : g.isMember := isMember_iff.mpr ⟨p, own', name ▸ List.prefix_append _ _⟩
  refine ⟨own', member', fun same => chars ?_, ?_⟩
  · rw [← String.toList_inj, name] at same
    exact List.append_left_eq_self.mp same
  · rw [← String.toList_inj, toList_methodName own' member', name, List.drop_left,
      toList_methodName own member, toList_name own member, replaceFrom_append chars,
      List.nil_append, List.drop_left]

/-- The prefix and the method name of a member spell its name just if the prefix occurs in it only
once. Members with such names are told apart by their method names; but each member has the method
name of another function with the same prefix, whose name has the prefix twice. -/
theorem methodName_faithful_iff (own : f.entityPrefix? = some p) (member : f.isMember) :
    (p ++ f.methodName = f.name ↔ ¬ Recurs p f.name) ∧
      (∀ g : Function, g.entityPrefix? = some p → g.isMember → ¬ Recurs p f.name →
        ¬ Recurs p g.name → (f.methodName = g.methodName ↔ f.name = g.name)) ∧
      ∃ g : Function, g.entityPrefix? = some p ∧ g.isMember ∧ g.name ≠ f.name ∧
        g.methodName = f.methodName := by
  refine ⟨prefix_methodName_eq_iff own member, fun g own' member' once once' => ?_,
    _, methodName_twice own member⟩
  have spelt := (prefix_methodName_eq_iff own member).mpr once
  have spelt' := (prefix_methodName_eq_iff own' member').mpr once'
  constructor
  · intro same
    rw [← spelt, same, spelt']
  · intro same
    rw [← String.toList_inj, toList_methodName own member, same, ← toList_methodName own' member']

def timerFunction (name : String) : Function :=
  ⟨name, .resolved "void" .plain false "" none, [.resolved "lv_timer_t" .pointer false "t" none]⟩

theorem methodName_faithful_timer :
    "lv_timer_" ++ (timerFunction "lv_timer_set_timer").methodName = "lv_timer_set_timer" :=
  (methodName_faithful_iff (f := timerFunction "lv_timer_set_timer") (p := "lv_timer_")
    (by decide +kernel) (by decide +kernel)).1.mpr (by decide +kernel)

/-- Two functions of a header that become one method. -/
theorem prefix_twice_merges :
    let f := timerFunction "lv_timer_run"
    let g := timerFunction "lv_timer_lv_timer_run"
    ofHeader ∅ "void lv_timer_run(lv_timer_t * t);\nvoid lv_timer_lv_timer_run(lv_timer_t * t);" =
        [f, g] ∧
      f.entityPrefix? = some "lv_timer_" ∧ g.entityPrefix? = some "lv_timer_" ∧
      f.isMember ∧ g.isMember ∧ f.name ≠ g.name ∧
      "lv_timer_" ++ g.methodName ≠ g.name ∧ f.methodName = g.methodName := by
  decide +kernel

end HeaderWrap.Function
