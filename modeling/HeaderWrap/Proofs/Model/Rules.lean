import Mathlib.Data.List.Basic
import HeaderWrap.Proofs.Lists
import HeaderWrap.Proofs.Model.Spans

/-! The rules of models as one list, in the order in which they are checked. A model is accepted
just if it keeps all of them, and of one that is not the first broken rule is reported. -/
namespace HeaderWrap.Model
open Naming (IsIdentifier)

/-- Something that is asked of one entry of a model. -/
inductive Rule where
  /-- A name is an identifier. -/
  | named (role : Role) (name : String)
  /-- A class has a C type. -/
  | typed (c : ClassEntry)
  /-- No class before bears the name of this one. -/
  | fresh (before : List ClassEntry) (name : String)
  /-- No class bears the name of a group. -/
  | apart (group : String)
  /-- A class that a template lists is declared. -/
  | declared (template name : String)
  /-- A conversion of a C type has a wrapper. -/
  | wrapped (type : String) (t : TypeEntry)

def Blank (s : String) : Prop := ∀ c ∈ s.toList, Text.isBlank c = true

private theorem allBlank_iff {s : String} : Text.allBlank s.toList = true ↔ Blank s := List.all_eq_true

namespace Rule

def Holds (m : Model) : Rule → Prop
  | named _ name => IsIdentifier name
  | typed c => ¬ Blank c.type
  | fresh before name => name ∉ before.map ClassEntry.name
  | apart group => group ∉ m.classes.map ClassEntry.name
  | declared _ name => name ∈ m.classes.map ClassEntry.name
  | wrapped _ t => ¬ Blank t.wrapper

/-- The error of a broken rule: its kind, and the names it carries. A class that is declared twice
is shown as such only where its name is in quotes twice. -/
inductive Reports (text : List Char) : Rule → Error → Prop
  | named {role : Role} {name : String} {fault : Naming.Fault} {span? : Option Span}
      (spoilt : Naming.fault? name = some fault) :
      Reports text (.named role name) (.invalidIdentifier name role.describe fault.reason span?)
  | typed {c : ClassEntry} {span? : Option Span} :
      Reports text (.typed c) (.validation ("class '" ++ c.name ++ "' has an empty C type") span?)
  | shown {before : List ClassEntry} {name : String} {first second : Span}
      (twice : Text.QuotedTwice name.toList text) :
      Reports text (.fresh before name) (.duplicateClass name first second)
  | hidden {before : List ClassEntry} {name : String} {span? : Option Span}
      (once : ¬ Text.QuotedTwice name.toList text) :
      Reports text (.fresh before name)
        (.validation ("class '" ++ name ++ "' is declared twice") span?)
  | apart {group : String} {span? : Option Span} :
      Reports text (.apart group) (.groupCollision group span?)
  | declared {template name : String} {span? : Option Span} :
      Reports text (.declared template name) (.unknownClass template name span?)
  | wrapped {type : String} {t : TypeEntry} {span? : Option Span} :
      Reports text (.wrapped type t)
        (.validation ("type '" ++ type ++ "' has an empty wrapper") span?)

def violation? (m : Model) : Rule → Option Violation
  | named role name => nameViolation? role name
  | typed c => if Text.allBlank c.type.toList then some (.blankType c.name) else none
  | fresh before name => if before.any (·.name == name) then some (.duplicateClass name) else none
  | apart group => if (m.class? group).isSome then some (.groupCollision group) else none
  | declared template name =>
    if (m.class? name).isNone then some (.unknownClass template name) else none
  | wrapped type t => typeViolation? type t

end Rule

def classRules (before : List ClassEntry) (c : ClassEntry) : List Rule :=
  [.named .ofClass c.name, .typed c, .fresh before c.name]

def headerRules (h : HeaderEntry) : List Rule := [.named .ofGroup h.group, .apart h.group]

def templateRules (t : TemplateEntry) : List Rule :=
  .named .ofTemplate t.name ::
    t.classes.flatMap fun name => [.named (.listedIn t.name) name, .declared t.name name]

def rules (m : Model) : List Rule :=
  m.classes.zipIdx.flatMap (fun (c, i) => classRules (m.classes.take i) c) ++
    (m.headers.flatMap headerRules ++ (m.templates.flatMap templateRules ++
      m.types.entries.map fun (type, t) => .wrapped type t))

/-- A model that collection and rendering may rely on. -/
structure Consistent (m : Model) : Prop where
  classes : ∀ c ∈ m.classes, IsIdentifier c.name ∧ ¬ Blank c.type
  distinct : (m.classes.map ClassEntry.name).Nodup
  groups : ∀ h ∈ m.headers, IsIdentifier h.group ∧ h.group ∉ m.classes.map ClassEntry.name
  templates : ∀ t ∈ m.templates, IsIdentifier t.name ∧
    ∀ name ∈ t.classes, IsIdentifier name ∧ name ∈ m.classes.map ClassEntry.name
  types : ∀ e ∈ m.types.entries, ¬ Blank e.2.wrapper

variable {m : Model}

/-! ### The first broken rule -/

theorem Rule.violation?_eq_none_iff {r : Rule} : r.violation? m = none ↔ r.Holds m := by
  cases r with
  | named role name =>
    rw [Rule.violation?, nameViolation?, Option.map_eq_none_iff, Naming.fault?_eq_none_iff]
    rfl
  | typed c => simp [Rule.violation?, Rule.Holds, ← allBlank_iff]
  | fresh before name => simp [Rule.violation?, Rule.Holds]
  | apart group => simp [Rule.violation?, Rule.Holds, ← class?_isSome_iff]
  | declared template name =>
    simp [Rule.violation?, Rule.Holds, ← class?_isSome_iff, Option.isSome_iff_ne_none]
  | wrapped type t => simp [Rule.violation?, typeViolation?, Rule.Holds, ← allBlank_iff]

private theorem findSome?_classRules (before : List ClassEntry) (c : ClassEntry) :
    (classRules before c).findSome? (Rule.violation? m) = classViolation? before c := by
  simp only [classRules, findSome?_cons_eq_or, List.findSome?_nil, Option.or_none, Rule.violation?,
    classViolation?, Option.orElse_eq_orElse, Option.orElse_eq_or]
  split <;> rfl

private theorem findSome?_headerRules (h : HeaderEntry) :
    (headerRules h).findSome? (Rule.violation? m) = headerViolation? m h := by
  simp only [headerRules, findSome?_cons_eq_or, List.findSome?_nil, Option.or_none, Rule.violation?,
    headerViolation?, Option.orElse_eq_orElse, Option.orElse_eq_or]

private theorem findSome?_templateRules (t : TemplateEntry) :
    (templateRules t).findSome? (Rule.violation? m) = templateViolation? m t := by
  have listed : listedViolation? m t.name = fun name =>
      (nameViolation? (.listedIn t.name) name).or
        (if (m.class? name).isNone then some (.unknownClass t.name name) else none) := by
    funext name
    rw [listedViolation?, Option.orElse_eq_orElse, Option.orElse_eq_or]
  simp only [templateRules, findSome?_flatMap, findSome?_cons_eq_or, List.findSome?_nil,
    Option.or_none, Rule.violation?, templateViolation?, listed, Option.orElse_eq_orElse,
    Option.orElse_eq_or]

private theorem classesViolation?_eq (before cs : List ClassEntry) :
    classesViolation? before cs = ((cs.zipIdx before.length).flatMap fun (c, i) =>
      classRules ((before ++ cs).take i) c).findSome? (Rule.violation? m) := by
  induction cs generalizing before with
  | nil => rfl
  | cons c cs ih =>
    -- the classes in front are those declared before and the ones of the list passed so far
    have rest := ih (before ++ [c])
    rw [List.length_append, List.length_singleton, List.append_assoc, List.singleton_append] at rest
    rw [classesViolation?, List.zipIdx_cons, List.flatMap_cons, List.findSome?_append, ← rest]
    dsimp only
    rw [List.take_left, findSome?_classRules, Option.orElse_eq_orElse, Option.orElse_eq_or]

/-- The violation of a model is that of the first rule that it breaks. -/
theorem violation?_eq : m.violation? = m.rules.findSome? (Rule.violation? m) := by
  simp only [rules, List.findSome?_append, findSome?_flatMap, findSome?_headerRules,
    findSome?_templateRules, List.findSome?_map]
  rw [violation?, classesViolation?_eq [] m.classes, findSome?_flatMap]
  simp only [Option.orElse_eq_orElse, Option.orElse_eq_or]
  rfl

/-- A model keeps all its rules just if it is consistent. -/
theorem forall_holds_iff : (∀ r ∈ m.rules, r.Holds m) ↔ Consistent m := by
  have classes : (∀ p ∈ m.classes.zipIdx, ∀ r ∈ classRules (m.classes.take p.2) p.1, r.Holds m) ↔
      (∀ c ∈ m.classes, IsIdentifier c.name ∧ ¬ Blank c.type) ∧
        (m.classes.map ClassEntry.name).Nodup := by
    have entries : (∀ c ∈ m.classes, IsIdentifier c.name ∧ ¬ Blank c.type) ↔
        ∀ p ∈ m.classes.zipIdx, IsIdentifier p.1.name ∧ ¬ Blank p.1.type := by
      conv_lhs => rw [← List.zipIdx_map_fst 0 m.classes]
      exact List.forall_mem_map
    rw [nodup_map_iff_take, entries, ← forall₂_and]
    simp only [classRules, List.forall_mem_cons, List.not_mem_nil, false_implies, implies_true,
      and_true, Rule.Holds, and_assoc]
  have headers : (∀ h ∈ m.headers, ∀ r ∈ headerRules h, r.Holds m) ↔
      ∀ h ∈ m.headers, IsIdentifier h.group ∧ h.group ∉ m.classes.map ClassEntry.name := by
    simp only [headerRules, List.forall_mem_cons, List.not_mem_nil, false_implies, implies_true,
      and_true, Rule.Holds]
  have templates : (∀ t ∈ m.templates, ∀ r ∈ templateRules t, r.Holds m) ↔
      ∀ t ∈ m.templates, IsIdentifier t.name ∧
        ∀ name ∈ t.classes, IsIdentifier name ∧ name ∈ m.classes.map ClassEntry.name := by
    simp only [templateRules, List.forall_mem_cons, List.forall_mem_flatMap, List.not_mem_nil,
      false_implies, implies_true, and_true, Rule.Holds]
  simp only [rules, List.forall_mem_append, List.forall_mem_flatMap, List.forall_mem_map]
  rw [classes, headers, templates]
  constructor
  · rintro ⟨⟨entries, distinct⟩, groups, lists, types⟩
    exact ⟨entries, distinct, groups, lists, types⟩
  · rintro ⟨entries, distinct, groups, lists, types⟩
    exact ⟨⟨entries, distinct⟩, groups, lists, types⟩

/-! ### What is reported of it -/

/-- Both declarations of a class are shown just if its name is in quotes twice. -/
theorem span?_second_isSome_iff {text : List Char} {name : String}
    (identifier : IsIdentifier name) : (span? text name 1).isSome ↔ Text.QuotedTwice name.toList text := by
  have full : name ≠ "" := by
    rintro rfl
    obtain ⟨⟨c, s, nonempty, -⟩, -⟩ := identifier
    cases nonempty
  rw [span?_isSome_iff, and_iff_right full]
  exact Text.two_quotesFound_iff (identifier.not_mem rfl) (identifier.not_mem rfl)

private theorem Rule.reports_error {text : List Char} {r : Rule} {v : Violation}
    (broken : r.violation? m = some v)
    (identifier : ∀ name, v = .duplicateClass name → IsIdentifier name) :
    r.Reports text (v.error text) := by
  cases r with
  | named role name =>
    rw [Rule.violation?, nameViolation?, Option.map_eq_some_iff] at broken
    obtain ⟨fault, spoilt, rfl⟩ := broken
    exact .named spoilt
  | typed c =>
    obtain ⟨-, ⟨⟩⟩ := Option.ite_none_right_eq_some.mp broken
    exact .typed
  | fresh before name =>
    obtain ⟨-, ⟨⟩⟩ := Option.ite_none_right_eq_some.mp broken
    have twice := @span?_second_isSome_iff text name (identifier name rfl)
    rw [Violation.error]
    split
    · next first second found found' => exact .shown (twice.mp (by rw [found']; rfl))
    · next unpaired =>
      refine .hidden fun quoted => ?_
      obtain ⟨second, found'⟩ := Option.isSome_iff_exists.mp (twice.mpr quoted)
      cases found : span? text name 0 with
      | none =>
        rw [span?_eq_none_of_first found] at found'
        contradiction
      | some first => exact unpaired first second found found'
  | apart group =>
    obtain ⟨-, ⟨⟩⟩ := Option.ite_none_right_eq_some.mp broken
    exact .apart
  | declared template name =>
    obtain ⟨-, ⟨⟩⟩ := Option.ite_none_right_eq_some.mp broken
    exact .declared
  | wrapped type t =>
    obtain ⟨-, ⟨⟩⟩ := Option.ite_none_right_eq_some.mp broken
    exact .wrapped

/-- A model is accepted just if it is consistent. Of one that is not, the first broken rule is
reported, whatever the text of the model. -/
theorem validate_reports_first_broken (text : List Char) (m : Model) :
    (validate text m = .ok () ↔ Consistent m) ∧
      ∀ e, validate text m = .error e → ∃ before rule after, m.rules = before ++ rule :: after ∧
        (∀ r ∈ before, r.Holds m) ∧ ¬ rule.Holds m ∧ rule.Reports text e := by
  constructor
  · rw [← forall_holds_iff]
    have accepted : validate text m = .ok () ↔ m.violation? = none := by
      rw [validate]
      cases m.violation? <;> simp
    rw [accepted, violation?_eq, List.findSome?_eq_none_iff]
    exact forall₂_congr fun r _ => Rule.violation?_eq_none_iff
  · intro e rejected
    obtain ⟨v, broken, rfl⟩ := validate_eq_error_iff.mp rejected
    have first := broken
    rw [violation?_eq, List.findSome?_eq_some_iff] at first
    obtain ⟨before, rule, after, split, breaks, kept⟩ := first
    refine ⟨before, rule, after, split, fun r hr => ?_, fun holds => ?_, ?_⟩
    · exact Rule.violation?_eq_none_iff.mp (kept r hr)
    · rw [Rule.violation?_eq_none_iff.mpr holds] at breaks
      contradiction
    · refine Rule.reports_error breaks fun name again => ?_
      exact identifier_of_duplicate (again ▸ broken)

end HeaderWrap.Model
