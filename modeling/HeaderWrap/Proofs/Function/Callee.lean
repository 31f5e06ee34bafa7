import HeaderWrap.Proofs.Function.Rendering
import HeaderWrap.Proofs.Header.Names

/-! Callees: a body calls the function that its header declares, by the identifier of the
declaration without the underscores in front. -/
namespace HeaderWrap
open Text

namespace Text

private theorem dropWhile_underscores_eq_iff (name : List Char) :
    name.dropWhile (· == '_') = name ↔ name.head? ≠ some '_' := by
  cases name with
  | nil => simp
  | cons c name =>
    by_cases underscore : c = '_'
    · have shorter := (List.dropWhile_suffix (l := name) (· == '_')).length_le
      rw [List.dropWhile_cons_of_pos (by simp [underscore])]
      refine iff_of_false (fun same => ?_) (by simp [underscore])
      rw [same] at shorter
      exact absurd shorter (Nat.not_succ_le_self _)
    · rw [List.dropWhile_cons_of_neg (by simp [underscore])]
      simp [underscore]

end Text

namespace Function

/-- A statement that calls the given callee, in the cast of the result, and nothing besides. -/
structure Calls (f : Function) (target : Option String) (r : Rendering)
    (callee statement : String) : Prop where
  text : statement = (if f.result.isVoid then "" else "return ") ++
    replaceAll Conversion.hole (callOf callee (f.callArgs target r))
      (f.result.returnCast r.registry) ++ ";"
  /-- Only a cast without a hole leaves the call out. -/
  occurs : Conversion.hole.toList <:+: (f.result.returnCast r.registry).toList →
    (callOf callee (f.callArgs target r)).toList <:+: statement.toList
  /-- Without a cast the call stands alone. -/
  alone : f.result.conversion? r.registry = none →
    statement = (if f.result.isVoid then "" else "return ") ++
      callOf callee (f.callArgs target r) ++ ";"

private theorem calls_name (f : Function) (target : Option String) (r : Rendering) :
    f.Calls target r f.name (f.statement target r) := by
  have text : f.statement target r = (if f.result.isVoid then "" else "return ") ++
      replaceAll Conversion.hole (callOf f.name (f.callArgs target r))
        (f.result.returnCast r.registry) ++ ";" := by
    rw [statement, call_eq]
  refine ⟨text, fun hole => ?_, fun bare => ?_⟩
  · rw [text, String.toList_append, String.toList_append, toList_replaceAll (by decide)]
    exact (infix_replaceFrom (by decide) hole).trans (List.infix_append _ _ _)
  · rw [text, Declaration.returnCast, bare, Option.bind_none, Option.getD_none,
      replaceAll_self (by decide)]

/-- Each function of a header has an identifier, which is a whole word of the header in front of the
parenthesis of its declaration. Wherever the function is defined, the body calls that identifier
without its leading underscores; so it calls the identifier just if there are none. -/
theorem calls_declared (registry : Registry) (text : String) :
    ∃ names, Header.Declares (Header.tokens .code text.toList) names (Header.prototypes text) ∧
      (∀ name ∈ names, Header.OpensBehind name text.toList) ∧
      List.Forall₂ (fun name f => ∃ callee : String,
          callee.toList = name.dropWhile (· == '_') ∧
          (callee.toList = name ↔ name.head? ≠ some '_') ∧
          ∀ target owner? r, ∀ definition ∈ f.definition? target owner? r, ∃ statement,
            definition = f.signatureLine target owner? r ++ " \x7b\n" ++ r.options.bodyIndent ++
              statement ++ "\n\x7d" ∧ f.Calls target r callee statement)
        names (ofHeader registry text) := by
  obtain ⟨names, declares, recorded⟩ := Header.exists_declares (Header.tokens .code text.toList)
  refine ⟨names, declares, declares.opensBehind (Header.cut_tokens .code text.toList), ?_⟩
  rw [ofHeader, Header.signatures, List.map_map, List.forall₂_map_right_iff]
  refine recorded.imp fun name p hp => ?_
  refine ⟨String.ofList p.name, ?_, ?_, fun target owner? r definition hd => ?_⟩
  · rw [String.toList_ofList, hp]
  · rw [String.toList_ofList, hp, dropWhile_underscores_eq_iff]
  · rw [definition?_eq] at hd
    split at hd
    · obtain rfl := Option.some.inj hd
      exact ⟨_, rfl, calls_name _ target r⟩
    · contradiction

/-- An identifier that begins with an underscore does not even occur in the definition. -/
theorem underscore_not_called :
    let text := "void _lv_tick_init(void);"
    let void : Declaration := .resolved "void" .plain false "" none
    let f : Function := ⟨"lv_tick_init", void, [void]⟩
    let definition := "void lv_tick_init() \x7b\n\t lv_tick_init();\n\x7d"
    Header.OpensBehind "_lv_tick_init".toList text.toList ∧ ofHeader .lvgl text = [f] ∧
      f.definition? none none ⟨.lvgl, {}⟩ = some definition ∧
      ¬ "_lv_tick_init".toList <:+: definition.toList := by
  intro text void f definition
  have whole : Header.IsWhole "void ".toList "_lv_tick_init".toList "(void);".toList := by
    refine ⟨by decide, fun c hc => ?_, fun c hc => ?_⟩
    · obtain rfl : ' ' = c := Option.some.inj hc
      decide
    · obtain rfl : '(' = c := Option.some.inj hc
      decide
  exact ⟨⟨"void ".toList, [], "void);".toList, by decide +kernel, whole⟩, by decide +kernel,
    by decide +kernel, by decide +kernel⟩

end Function
end HeaderWrap
