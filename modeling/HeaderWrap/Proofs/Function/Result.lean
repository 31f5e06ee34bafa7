import HeaderWrap.Model.Validation
import HeaderWrap.Proofs.Function.Rendering
import HeaderWrap.Proofs.Header.Trimming
import HeaderWrap.Proofs.Lists
import HeaderWrap.Proofs.Table

/-! Results: a body returns one just if the C function has one, which is what the declaration says
unless a conversion, or the tag of a structure, makes its type read otherwise. -/
namespace HeaderWrap
open Text

namespace Text

private theorem prefix_append_cons_iff {p : List Char} {c : Char} (absent : c ∉ p) (s t : List Char) :
    p <+: s ++ c :: t ↔ p <+: s := by
  refine ⟨fun h => ?_, fun h => h.trans (List.prefix_append _ _)⟩
  rcases List.prefix_or_prefix_of_prefix h (List.prefix_append s (c :: t)) with short | ⟨u, rfl⟩
  · exact short
  · cases u with
    | nil => simp
    | cons d u =>
      obtain ⟨rfl, -⟩ := List.cons_prefix_cons.mp ((List.prefix_append_right_inj s).mp h)
      exact absurd (List.mem_append_right s List.mem_cons_self) absent

private theorem append_space_eq_iff {a b : List Char} (ha : ' ' ∉ a) (hb : ' ' ∉ b) (s t : List Char) :
    s ++ ' ' :: t = a ++ ' ' :: b ↔ s = a ∧ t = b := by
  refine ⟨fun h => ?_, fun ⟨hs, ht⟩ => hs ▸ ht ▸ rfl⟩
  rcases List.append_eq_append_iff.mp h with ⟨u, hu, ht⟩ | ⟨u, hu, ht⟩
  · cases u with
    | nil => exact ⟨by simpa using hu.symm, by simpa using ht⟩
    | cons c u =>
      obtain ⟨rfl, -⟩ := List.cons.inj ht
      exact absurd (hu ▸ List.mem_append_right s List.mem_cons_self) ha
  · cases u with
    | nil => exact ⟨by simpa using hu, by simpa using ht.symm⟩
    | cons c u =>
      obtain ⟨-, hb'⟩ := List.cons.inj ht
      exact absurd (hb' ▸ List.mem_append_right u List.mem_cons_self) hb

end Text

def ReadsVoid (type : String) : Prop := type = "void" ∨ type = "const void"

instance (type : String) : Decidable (ReadsVoid type) :=
  inferInstanceAs (Decidable (type = "void" ∨ type = "const void"))

private theorem append_space_ne {s t a : String} (word : ' ' ∉ a.toList) : s ++ " " ++ t ≠ a := by
  rintro rfl
  exact word (by simp)

private theorem readsVoid_append_space_iff {s t : String} :
    ReadsVoid (s ++ " " ++ t) ↔ s = "const" ∧ t = "void" := by
  have split := append_space_eq_iff (a := "const".toList) (b := "void".toList) (by decide)
    (by decide) s.toList t.toList
  simp only [ReadsVoid, append_space_ne (a := "void") (by decide), false_or]
  rw [← String.toList_inj, ← String.toList_inj, ← String.toList_inj, ← split]
  simp

private theorem readsVoid_const_iff (isConst : Bool) (type : String) :
    ReadsVoid ((if isConst then "const " else "") ++ type) ↔
      type = "void" ∨ isConst = false ∧ type = "const void" := by
  cases isConst with
  | false => simp [ReadsVoid]
  | true =>
    have spaced : "const " ++ type = "const" ++ " " ++ type := rfl
    rw [if_pos rfl, spaced, readsVoid_append_space_iff]
    simp

private theorem const_append_eq_const_iff (isConst : Bool) (type : String) :
    (if isConst then "const " else "") ++ type = "const" ↔ isConst = false ∧ type = "const" := by
  cases isConst with
  | false => simp
  | true =>
    have spaced : "const " ++ type = "const" ++ " " ++ type := rfl
    rw [if_pos rfl, spaced]
    exact iff_of_false (append_space_ne (by decide)) (by simp)

namespace Conversion

def ReturnsPointer (c : Conversion) (d : Declaration) : Prop :=
  c.kind = .classDescriptor ∧ d.modifier = .pointer

instance (c : Conversion) (d : Declaration) : Decidable (c.ReturnsPointer d) :=
  inferInstanceAs (Decidable (c.kind = .classDescriptor ∧ d.modifier = .pointer))

def DeclaresVoid (c : Conversion) (d : Declaration) : Prop :=
  ¬ c.ReturnsPointer d ∧
    (d.name = "" ∧ (c.wrapper = "void" ∨ d.isConst = false ∧ c.wrapper = "const void") ∨
      d.name = "void" ∧ d.isConst = false ∧ c.wrapper = "const")

instance (c : Conversion) (d : Declaration) : Decidable (c.DeclaresVoid d) :=
  inferInstanceAs (Decidable (_ ∧ _))

/-- A wrapped result is declared without a star where its type reads like words. -/
theorem returnType_eq_iff (c : Conversion) (d : Declaration) {type : String}
    (words : type = "void" ∨ type = "const void" ∨ type = "const") :
    c.returnType d.modifier = type ↔ ¬ c.ReturnsPointer d ∧ c.wrapper = type := by
  have cases : c.returnType d.modifier =
      if c.ReturnsPointer d then c.wrapper ++ " *" else c.wrapper := rfl
  by_cases pointer : c.ReturnsPointer d
  · rw [cases, if_pos pointer]
    have spaced : c.wrapper ++ " *" = c.wrapper ++ " " ++ "*" := by
      rw [String.append_assoc]
      rfl
    have other : ¬ ReadsVoid (c.wrapper ++ " " ++ "*") := by
      rw [readsVoid_append_space_iff]
      simp
    rw [spaced]
    simp only [pointer, not_true_eq_false, false_and, iff_false]
    rcases words with rfl | rfl | rfl
    · exact fun h => other (.inl h)
    · exact fun h => other (.inr h)
    · exact append_space_ne (by decide)
  · rw [cases, if_neg pointer]
    simp [pointer]

/-- What a wrapped result is declared as. -/
theorem readsVoid_iff (c : Conversion) (d : Declaration)
    (wrapper : d.wrapper? =
      some ((if d.isConst then "const " else "") ++ c.returnType d.modifier)) :
    ReadsVoid d.display ↔ c.DeclaresVoid d := by
  simp only [Declaration.display, wrapper]
  have void := c.returnType_eq_iff d (.inl rfl)
  have constVoid := c.returnType_eq_iff d (.inr (.inl rfl))
  have const := c.returnType_eq_iff d (.inr (.inr rfl))
  by_cases unnamed : d.name = ""
  · rw [if_pos unnamed, readsVoid_const_iff, void, constVoid, DeclaresVoid, unnamed]
    by_cases pointer : c.ReturnsPointer d
    · simp [pointer]
    · simp [pointer]
  · rw [if_neg unnamed, readsVoid_append_space_iff, const_append_eq_const_iff, const, DeclaresVoid]
    by_cases pointer : c.ReturnsPointer d
    · simp [pointer]
    · simp [pointer, unnamed, and_comm]

end Conversion

/-- No conversion makes a result read `void`, and `void` itself has none. -/
structure Registry.IsPlain (registry : Registry) : Prop where
  void : registry.get? "void" = none
  wrapper : ∀ e ∈ registry.entries, e.2.wrapper ∉ ["void", "const void", "const"]

private theorem Registry.isPlain_lvgl : Registry.lvgl.IsPlain := ⟨by decide +kernel, by decide +kernel⟩

private theorem Registry.IsPlain.not_declaresVoid {registry : Registry} (plain : registry.IsPlain)
    {type : String} {c : Conversion} (found : registry.get? type = some c) (d : Declaration) :
    ¬ c.DeclaresVoid d := by
  have other := plain.wrapper (type, c) (Table.mem_entries_of_get? found)
  simp only [List.mem_cons, List.not_mem_nil, or_false, not_or] at other
  obtain ⟨void, constVoid, const⟩ := other
  simp [Conversion.DeclaresVoid, void, constVoid, const]

namespace Header
variable {registry : Registry} {position : Position} {text : String} {p : Parts} {c : Conversion}

/-- A fragment that fits the grammar goes through the conversion of its type. -/
theorem conversion?_resolve (registry : Registry) (position : Position) (text : String) :
    (resolve registry position text).conversion? registry =
      (parts? position text).bind fun p => registry.get? p.base := by
  cases read : parts? position text with
  | none => rw [resolve, read]; rfl
  | some p =>
    rw [resolve_of_parts read, Declaration.conversion?, Declaration.isWrapped,
      Declaration.wrapper?, Declaration.baseType, wrapperType?, Option.isSome_map]
    cases found : registry.get? p.base with
    | none => rw [Option.bind_some, found]; rfl
    | some c => rw [Option.bind_some, found]; rfl

private theorem parts_of_conversion?
    (converted : (resolve registry position text).conversion? registry = some c) :
    ∃ p, parts? position text = some p ∧
      wrapperType? registry position p =
        some ((if p.isConst then "const " else "") ++ c.typeAt position p.modifier) := by
  rw [conversion?_resolve] at converted
  obtain ⟨p, read, found⟩ := Option.bind_eq_some_iff.mp converted
  exact ⟨p, read, by rw [wrapperType?, found]; rfl⟩

private theorem readsVoid_display_iff
    (converted : (resolve registry .result text).conversion? registry = some c) :
    ReadsVoid (resolve registry .result text).display ↔
      c.DeclaresVoid (resolve registry .result text) := by
  obtain ⟨p, read, wrapper⟩ := parts_of_conversion? converted
  refine c.readsVoid_iff _ ?_
  rw [resolve_of_parts read, wrapper]
  rfl

private theorem readName_result {words type : List (List Char)} {name : List Char} {ts : List Token}
    (named : readName .result words .plain ts = some (type, name)) : name = [] := by
  match ts with
  | [] => simpa [readName] using (congrArg (Option.map Prod.snd) named).symm
  | [t] => simp [readName] at named
  | _ :: _ :: _ => contradiction

private theorem name_of_plain (read : parts? .result text = some p) (plain : p.modifier = .plain) :
    p.name = "" := by
  rw [parts?, partsOf?] at read
  obtain ⟨_, -, read⟩ := Option.bind_eq_some_iff.mp read
  obtain ⟨_, -, read⟩ := Option.bind_eq_some_iff.mp read
  obtain ⟨⟨modifier, rest⟩, -, read⟩ := Option.bind_eq_some_iff.mp read
  obtain ⟨⟨type, name⟩, named, read⟩ := Option.bind_eq_some_iff.mp read
  obtain rfl := Option.some.inj read
  obtain rfl : modifier = .plain := plain
  exact congrArg String.ofList (readName_result named)

private theorem not_readsVoid_unresolved (read : parts? .result text = none) :
    ¬ ReadsVoid (Declaration.unresolved text).rawType := by
  have trimmed : parts? .result (Declaration.unresolved text).rawType = none := by
    rw [parts?, Declaration.unresolved, Declaration.rawType, String.toList_ofList, lexemes_trim]
    exact read
  rintro (void | void)
  · rw [void] at trimmed
    exact absurd trimmed (by decide)
  · rw [void] at trimmed
    exact absurd trimmed (by decide)

private theorem canonical_plain (base : String) (isConst : Bool) :
    Declaration.canonical base .plain isConst "" = (if isConst then "const " else "") ++ base := by
  cases isConst with
  | false => rfl
  | true => rfl

private theorem not_readsVoid_canonical {modifier : Modifier} (modified : modifier ≠ .plain)
    (base : String) (isConst : Bool) (name : String) :
    ¬ ReadsVoid (Declaration.canonical base modifier isConst name) := by
  have symbol : '*' ∈ (Declaration.canonical base modifier isConst name).toList ∨
      '&' ∈ (Declaration.canonical base modifier isConst name).toList := by
    rw [Declaration.canonical, unwords, String.toList_intercalate]
    cases modifier with
    | plain => contradiction
    | pointer => cases isConst <;> simp [Modifier.symbol, intercalate_cons]
    | reference => cases isConst <;> simp [Modifier.symbol, intercalate_cons]
  rintro (void | void)
  · rw [void] at symbol
    exact absurd symbol (by decide)
  · rw [void] at symbol
    exact absurd symbol (by decide)

/-- A result without a conversion reads `void` if it is, or if it is `const void` as written. -/
theorem readsVoid_plain_iff
    (bare : (resolve registry .result text).conversion? registry = none) :
    ReadsVoid (resolve registry .result text).display ↔
      (resolve registry .result text).isVoid ∨
        (resolve registry .result text).rawType = "const void" := by
  cases read : parts? .result text with
  | none =>
    have other := not_readsVoid_unresolved read
    rw [resolve, read]
    change ReadsVoid (Declaration.unresolved text).rawType ↔
      false ∨ (Declaration.unresolved text).rawType = "const void"
    exact iff_of_false other (by simpa using fun h => other (.inr h))
  | some p =>
    rw [conversion?_resolve, read, Option.bind_some] at bare
    rw [resolve_of_parts read, wrapperType?, bare, Option.map_none]
    change ReadsVoid (Declaration.canonical p.base p.modifier p.isConst p.name) ↔
      (p.base == "void" && decide (p.modifier = .plain)) ∨
        Declaration.canonical p.base p.modifier p.isConst p.name = "const void"
    by_cases plain : p.modifier = .plain
    · rw [name_of_plain read plain, plain, canonical_plain, readsVoid_const_iff]
      cases p.isConst with
      | false => simp
      | true =>
        have qualified (h : "const " ++ p.base = "const void") : p.base = "void" := by
          simpa using (readsVoid_const_iff true p.base).mp (.inr h)
        simpa using qualified
    · have other := not_readsVoid_canonical plain p.base p.isConst p.name
      exact iff_of_false other (by simpa [plain] using fun h => other (.inr h))

end Header

namespace Function

def Returns (statement : String) : Prop := "return ".toList <+: statement.toList

instance (statement : String) : Decidable (Returns statement) :=
  inferInstanceAs (Decidable ("return ".toList <+: statement.toList))

private theorem returns_statement_iff (f : Function) (target : Option String) (r : Rendering) :
    Returns (f.statement target r) ↔ f.result.isVoid = false ∨ Returns (f.call target r) := by
  cases void : f.result.isVoid with
  | false =>
    refine iff_of_true ?_ (.inl rfl)
    simp [Returns, statement, void, String.toList_append]
  | true =>
    simp only [Returns, statement, void, if_true, String.empty_append, String.toList_append,
      Bool.true_eq_false, false_or]
    exact prefix_append_cons_iff (by decide) _ _

/-- A bare call returns nothing, unless the name of the function says so. -/
theorem returns_callOf_iff (f : Function) (args : List String) :
    Returns (callOf f.name args) ↔ Returns f.name := by
  simp only [Returns, callOf, String.toList_append, List.append_assoc]
  exact prefix_append_cons_iff (by decide) _ _

def cCall (f : Function) (target : Option String) (r : Rendering) : String :=
  callOf f.name (f.callArgs target r)

/-- The declaration says rightly whether the body returns a result. -/
structure Truthful (f : Function) (target : Option String) (r : Rendering) : Prop where
  /-- The tag of a structure may read `const void` without being a qualified `void`. -/
  tag : f.result.conversion? r.registry = none → f.result.isVoid = false →
    f.result.rawType ≠ "const void"
  /-- No name from a header begins with a word and a blank. -/
  name : f.result.conversion? r.registry = none → f.result.isVoid → ¬ Returns f.name
  /-- The wrapper of a type that is not plain `void` does not read `void`. -/
  wrapper : ∀ c ∈ f.result.conversion? r.registry, f.result.isVoid = false →
    ¬ c.DeclaresVoid f.result
  /-- The wrapper of plain `void` reads `void`, unless the cast returns something. -/
  void : ∀ c ∈ f.result.conversion? r.registry, f.result.isVoid →
    (Returns (c.castReturn (f.cCall target r)) ↔ ¬ c.DeclaresVoid f.result)

private theorem call_of_conversion? {f : Function} {r : Rendering} {c : Conversion}
    (converted : f.result.conversion? r.registry = some c) (target : Option String) :
    f.call target r = c.castReturn (f.cCall target r) := by
  rw [call_eq, Declaration.returnCast, converted, Option.bind_some, Conversion.castReturn, cCall]
  cases c.returnCast? with
  | none => exact replaceAll_self (by decide) _
  | some cast => rfl

private theorem call_of_no_conversion {f : Function} {r : Rendering}
    (bare : f.result.conversion? r.registry = none) (target : Option String) :
    f.call target r = f.cCall target r := by
  rw [call_eq, Declaration.returnCast, bare, Option.bind_none, Option.getD_none]
  exact replaceAll_self (by decide) _

private theorem truthful_of_no_conversion {f : Function} {target : Option String} {r : Rendering}
    (bare : f.result.conversion? r.registry = none) :
    f.Truthful target r ↔ (f.result.isVoid = false → f.result.rawType ≠ "const void") ∧
      (f.result.isVoid → ¬ Returns f.name) :=
  ⟨fun truthful => ⟨truthful.tag bare, truthful.name bare⟩,
    fun ⟨tag, name⟩ => ⟨fun _ => tag, fun _ => name, by simp [bare], by simp [bare]⟩⟩

private theorem truthful_of_conversion? {f : Function} {target : Option String} {r : Rendering}
    {c : Conversion} (converted : f.result.conversion? r.registry = some c) :
    f.Truthful target r ↔ (f.result.isVoid = false → ¬ c.DeclaresVoid f.result) ∧
      (f.result.isVoid →
        (Returns (c.castReturn (f.cCall target r)) ↔ ¬ c.DeclaresVoid f.result)) :=
  ⟨fun truthful => ⟨truthful.wrapper c converted, truthful.void c converted⟩,
    fun ⟨wrapper, void⟩ => ⟨by simp [converted], by simp [converted],
      fun d hd => Option.some.inj (converted.symm.trans hd) ▸ wrapper,
      fun d hd => Option.some.inj (converted.symm.trans hd) ▸ void⟩⟩

/-- The body of a method returns a result just if its declaration does not read `void`, provided
that the declaration is truthful, and only then. -/
theorem returns_iff_declares (s : Signature) (target owner? : Option String) (r : Rendering)
    (own : (ofSignature r.registry s).isOf target) :
    let f := ofSignature r.registry s
    f.declaration? target r = some (f.signatureLine target none r ++ ";") ∧
      (∃ rest, f.signatureLine target none r = f.result.display ++ " " ++ rest) ∧
      f.definition? target owner? r = some (f.signatureLine target owner? r ++ " \x7b\n" ++
        r.options.bodyIndent ++ f.statement target r ++ "\n\x7d") ∧
      ((Returns (f.statement target r) ↔ ¬ ReadsVoid f.result.display) ↔ f.Truthful target r) := by
  intro f
  have result : f.result = Header.resolve r.registry .result s.result := rfl
  refine ⟨if_pos own, f.signatureLine_result target none r, ?_, ?_⟩
  · rw [definition?_eq, if_pos own]
  · rw [returns_statement_iff]
    cases converted : f.result.conversion? r.registry with
    | none =>
      have reads : ReadsVoid f.result.display ↔
          f.result.isVoid ∨ f.result.rawType = "const void" := by
        rw [result] at converted ⊢
        exact Header.readsVoid_plain_iff converted
      rw [call_of_no_conversion converted, cCall, returns_callOf_iff, reads,
        truthful_of_no_conversion converted]
      cases f.result.isVoid with
      | false => simp
      | true => simp
    | some c =>
      have reads : ReadsVoid f.result.display ↔ c.DeclaresVoid f.result := by
        rw [result] at converted ⊢
        exact Header.readsVoid_display_iff converted
      rw [call_of_conversion? converted, reads, truthful_of_conversion? converted]
      cases f.result.isVoid with
      | false => simp
      | true => simp

private theorem truthful_of_isPlain {r : Rendering} (plain : r.registry.IsPlain) {s : Signature}
    (name : ¬ Returns s.name)
    (tag : (Header.resolve r.registry .result s.result).rawType ≠ "const void")
    (target : Option String) : (ofSignature r.registry s).Truthful target r := by
  cases converted : (ofSignature r.registry s).result.conversion? r.registry with
  | none => exact (truthful_of_no_conversion converted).mpr ⟨fun _ => tag, fun _ => name⟩
  | some c =>
    have found := Declaration.get?_of_conversion? converted
    have reads := plain.not_declaresVoid found (ofSignature r.registry s).result
    refine (truthful_of_conversion? converted).mpr ⟨fun _ => reads, fun void => ?_⟩
    have base : (ofSignature r.registry s).result.baseType = "void" :=
      Declaration.baseType_of_isVoid void
    rw [base, plain.void] at found
    contradiction

theorem returns_iff_declares_child :
    let s : Signature :=
      ⟨"lv_obj_get_child", "lv_obj_t *", ["const lv_obj_t * obj", "int32_t id"]⟩
    let f := ofSignature .lvgl s
    Returns (f.statement (some "lv_obj_") ⟨.lvgl, {}⟩) ↔ ¬ ReadsVoid f.result.display :=
  (returns_iff_declares ⟨"lv_obj_get_child", "lv_obj_t *", ["const lv_obj_t * obj", "int32_t id"]⟩
    (some "lv_obj_") (some "Object") ⟨.lvgl, {}⟩ (by decide +kernel)).2.2.2.mpr
    (truthful_of_isPlain Registry.isPlain_lvgl (by decide) (by decide +kernel) _)

/-- A conversion of `void` makes a function without a result declare one that it does not return. -/
theorem void_conversion_misleads :
    let m : Model :=
      { Model.empty with types := Table.ofList [("void", ⟨"Buffer", .handle, none, none⟩)] }
    let r : Rendering := ⟨Registry.lvgl.extend m.types.entries, m.options⟩
    let f := ofSignature r.registry ⟨"lv_tick_inc", "void", ["int n"]⟩
    m.violation? = none ∧
      f.declaration? none r = some "Buffer lv_tick_inc(int n);" ∧
      f.definition? none none r =
        some "Buffer lv_tick_inc(int n) \x7b\n\t Buffer(lv_tick_inc(n), false);\n\x7d" ∧
      ¬ (Returns (f.statement none r) ↔ ¬ ReadsVoid f.result.display) := by
  decide +kernel

end Function
end HeaderWrap
