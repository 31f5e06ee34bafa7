import HeaderWrap.Proofs.Header.Parameters

/-! Which comments leave the functions of a header as they are. Recognition passes over comments,
but the slices it takes still hold them: a comma in a comment cuts a parameter, and a declaration
outside the grammar keeps its comments. -/
namespace HeaderWrap.Header
open Text

def HarmlessResult (s : List Char) : Prop :=
  hasComment s → (parts? .result (String.ofList s)).isSome

/-- A comment in a parameter is harmless if the parameter fits the grammar up to its first comma,
and if nothing but commas and blanks follows there. -/
def HarmlessParam (s : List Char) : Prop :=
  hasComment s → (parts? .parameter (String.ofList (s.takeWhile (· ≠ ',')))).isSome ∧
    ∀ c ∈ s.dropWhile (· ≠ ','), c = ',' ∨ isBlank c

structure Prototype.Harmless (p : Prototype) : Prop where
  result : HarmlessResult p.result
  params : ∀ s ∈ codeParts .code p.args, HarmlessParam s

private theorem parts?_of_lexemes {position : Position} {s t : List Char} (h : lexemes s = lexemes t) :
    parts? position (String.ofList s) = parts? position (String.ofList t) := by
  rw [parts?, parts?, String.toList_ofList, String.toList_ofList, h]

/-- A comment does not matter in a fragment that fits the grammar; in another it is kept. -/
theorem resolve_eq_iff (registry : Registry) (position : Position) {s t : List Char}
    (same : lexemes t = lexemes s) (commented : hasComment s) (clean : hasComment t = false) :
    resolve registry position (String.ofList t) = resolve registry position (String.ofList s) ↔
      (parts? position (String.ofList s)).isSome := by
  rw [resolve, resolve, parts?_of_lexemes same]
  cases parts? position (String.ofList s) with
  | some p => simp
  | none =>
    simp only [Declaration.unresolved, String.toList_ofList, Declaration.verbatim.injEq,
      String.ofList_inj, Option.isSome_none, Bool.false_eq_true, iff_false]
    intro h
    rw [← hasComment_trim, h, hasComment_trim, commented] at clean
    contradiction

private theorem resolve_clear_iff (registry : Registry) (s : List Char) :
    resolve registry .result (String.ofList (clear .code s)) =
      resolve registry .result (String.ofList s) ↔ HarmlessResult s := by
  by_cases h : hasComment s
  · rw [resolve_eq_iff registry .result (lexemes_clear s) h (hasComment_clear .code s)]
    simp [HarmlessResult, h]
  · rw [clear_eq_self (by simpa using h)]
    simp [HarmlessResult, h]

def declare (registry : Registry) (s : List Char) : List Declaration :=
  (splitParams s).map fun a => resolve registry .parameter (String.ofList a)

/-- The function of a declaration as it stands in a header. -/
theorem ofSignature_signature (registry : Registry) (p : Prototype) :
    Function.ofSignature registry p.signature =
      ⟨String.ofList p.name, resolve registry .result (String.ofList p.result),
        declare registry p.args⟩ := by
  rw [Function.ofSignature, Prototype.signature, declare, List.map_map]
  rfl

private theorem declare_commented (registry : Registry) {s : List Char} (hidden : ',' ∉ clear .code s)
    (h : hasComment s) :
    declare registry s =
      resolve registry .parameter (String.ofList (trim (s.takeWhile (· ≠ ',')))) ::
        declare registry (s.dropWhile (· ≠ ',')) := by
  have front : splitParams (s.takeWhile (· ≠ ',')) = [trim (s.takeWhile (· ≠ ','))] := by
    rw [splitParams_of_no_comma, if_neg]
    · intro blank
      have h := hasComment_takeWhile hidden h
      rw [← hasComment_trim, blank] at h
      contradiction
    · intro comma
      have h := List.all_eq_true.mp List.all_takeWhile ',' comma
      simp at h
  rw [declare, ← splitParams_span, front]
  rfl

/-- Clearing a part of a parameter list leaves its declarations alone just if it is harmless. -/
theorem declare_clear_iff (registry : Registry) {s : List Char} (hidden : ',' ∉ clear .code s) :
    declare registry (clear .code s) = declare registry s ↔ HarmlessParam s := by
  by_cases h : hasComment s
  · have comment := hasComment_takeWhile hidden h
    have gap (rest : ∀ c ∈ s.dropWhile (· ≠ ','), c = ',' ∨ isBlank c) :
        lexemes (s.takeWhile (· ≠ ',')) = lexemes s := by
      have hs : s.takeWhile (· ≠ ',') ++ s.dropWhile (· ≠ ',') = s :=
        List.takeWhile_append_dropWhile
      have append := lexemes_append (s.takeWhile (· ≠ ',')) rest fun _ t ht hk => by
        rw [hs, ← lexemes_clear, lexemes] at ht
        obtain ⟨u, hu, rfl⟩ := List.mem_map.mp ht
        exact hidden (comma_mem_of_token (List.mem_filter.mp hu).1 hk)
      rw [← append, hs]
    rw [declare_commented registry hidden h, declare, splitParams_of_no_comma hidden]
    by_cases blank : trim (clear .code s) = []
    · rw [if_pos blank]
      simp only [List.map_nil, reduceCtorEq, false_iff]
      intro harmless
      obtain ⟨fits, rest⟩ := harmless h
      have none : lexemes (s.takeWhile (· ≠ ',')) = [] := by
        rw [gap rest, ← lexemes_clear, ← lexemes_trim, blank]
        rfl
      rw [parts?, String.toList_ofList, none] at fits
      contradiction
    · rw [if_neg blank, List.map_singleton, List.cons.injEq, eq_comm (a := []), declare,
        List.map_eq_nil_iff, splitParams_eq_nil_iff, HarmlessParam]
      simp only [h, true_imp_iff]
      refine and_congr_left fun rest => ?_
      rw [resolve_eq_iff]
      · rw [parts?_of_lexemes (lexemes_trim _)]
      · rw [lexemes_trim, lexemes_trim, lexemes_clear, gap rest]
      · rwa [hasComment_trim]
      · rw [hasComment_trim, hasComment_clear]
  · rw [clear_eq_self (by simpa using h)]
    simp [HarmlessParam, h]

/-- Clearing a parameter list leaves its declarations alone just if all its parts are harmless. -/
theorem declare_clear_list_iff (registry : Registry) (s : List Char) :
    declare registry (clear .code s) = declare registry s ↔
      ∀ p ∈ codeParts .code s, HarmlessParam p := by
  have pieces : declare registry s = (codeParts .code s).flatMap (declare registry) := by
    rw [declare, splitParams_codeParts, List.map_flatMap]
    rfl
  have clearPieces : declare registry (clear .code s) =
      (codeParts .code s).flatMap fun p => declare registry (clear .code p) := by
    rw [declare, splitParams_clear, List.map_flatMap]
    rfl
  rw [pieces, clearPieces, flatMap_eq_iff]
  · exact forall₂_congr fun p hp => declare_clear_iff registry (comma_hidden hp)
  · intro p hp
    by_cases h : hasComment p
    · rw [declare_commented registry (comma_hidden hp) h, declare,
        splitParams_of_no_comma (comma_hidden hp)]
      split
      · simp
      · simp
    · rw [clear_eq_self (by simpa using h)]

/-- Clearing the comments of a header leaves its functions alone just if all comments in its
declarations are harmless. -/
theorem ofHeader_withoutComments_iff (registry : Registry) (text : String) :
    Function.ofHeader registry (withoutComments text) = Function.ofHeader registry text ↔
      ∀ p ∈ prototypes text, p.Harmless := by
  rw [Function.ofHeader, Function.ofHeader, signatures, signatures, prototypes_withoutComments,
    List.map_map, List.map_map, List.map_map, List.map_inj_left]
  refine forall₂_congr fun p _ => ?_
  simp only [Function.comp_apply, ofSignature_signature, Prototype.clear,
    HeaderWrap.Function.mk.injEq, true_and, resolve_clear_iff, declare_clear_list_iff]
  exact ⟨fun h => ⟨h.1, h.2⟩, fun h => ⟨h.result, h.params⟩⟩

/-- A comma in a comment makes two parameters of one. -/
theorem comma_in_comment_cuts :
    Function.ofHeader ∅ (withoutComments "void lv_f(int a /* x, y */);") ≠
      Function.ofHeader ∅ "void lv_f(int a /* x, y */);" := by
  decide +kernel

end HeaderWrap.Header
