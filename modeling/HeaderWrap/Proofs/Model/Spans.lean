import HeaderWrap.Proofs.Model.Consistency
import HeaderWrap.Proofs.Naming.Identifier
import HeaderWrap.Proofs.Text.Occurrence

/-! Spans of errors. Each one marks the name that its error is about, in quotes, whatever else the
text of the model holds; and where the name is in quotes at all, there is a span. -/
namespace HeaderWrap.Model
open Text
open Naming (IsIdentifier)

/-- A span marks a name in a text: it begins and ends on boundaries of UTF-8, the bytes in it spell
the name, and quotes of one kind enclose it. -/
structure Span.Marks (span : Span) (name source : String) : Prop where
  start : String.Pos.Raw.IsValid source ⟨span.offset⟩
  stop : String.Pos.Raw.IsValid source ⟨span.stop⟩
  inside : span.stop ≤ source.utf8ByteSize
  spelled : source.toByteArray.extract span.offset span.stop = name.toByteArray
  enclosed : 0 < span.offset ∧ ∃ quote, (quote = '"' ∨ quote = '\'') ∧
    source.toByteArray.extract (span.offset - 1) (span.stop + 1) =
      (String.ofList (inQuotes quote name.toList)).toByteArray

private theorem Span.marks_of_quotedAt {name source : String} {o : Nat}
    (quoted : QuotedAt name.toList source.toList o) :
    Span.Marks ⟨o + 1, byteLength name.toList⟩ name source := by
  obtain ⟨quote, kind, before, after, split, rfl⟩ := quoted
  have opened : byteLength (before ++ [quote]) = byteLength before + 1 := by
    rw [byteLength_append]
    rcases kind with rfl | rfl <;> rfl
  have named : source.toList = before ++ [quote] ++ (name.toList ++ (quote :: after)) := by
    simpa [inQuotes] using split
  have start := isValid_of_split named
  have spelled := extract_of_split named
  rw [← List.append_assoc] at named
  have stop := isValid_of_split named
  rw [byteLength_append, opened] at stop
  rw [opened] at start spelled
  have whole := extract_of_split split
  have total : byteLength before + byteLength (inQuotes quote name.toList) =
      byteLength before + 1 + byteLength name.toList + 1 := by
    rw [byteLength_inQuotes kind]
    omega
  rw [total] at whole
  refine ⟨start, stop, stop.le_rawEndPos, ?_, Nat.succ_pos _, quote, kind, ?_⟩
  · rw [toByteArray_eq name]
    exact spelled
  · rw [String.toByteArray_ofList]
    exact whole

section
variable {text : List Char} {name : String}

private theorem span?_eq (full : name ≠ "") (text : List Char) (i : Nat) :
    span? text name i =
      (quotesFound name.toList text)[i]?.map fun o => ⟨o + 1, byteLength name.toList⟩ := by
  rw [span?, quotedOccurrences_eq (mt String.toList_eq_nil_iff.mp full), List.getElem?_map,
    Option.map_map]
  rfl

private theorem span?_empty (text : List Char) (i : Nat) : span? text "" i = none := rfl

theorem span?_isSome_iff {i : Nat} :
    (span? text name i).isSome ↔ name ≠ "" ∧ i < (quotesFound name.toList text).length := by
  by_cases full : name = ""
  · rw [full, span?_empty]
    simp
  · rw [span?_eq full, Option.isSome_map, isSome_getElem?, and_iff_right full]

private theorem exists_of_span? {i : Nat} {span : Span} (h : span? text name i = some span) :
    ∃ o, (quotesFound name.toList text)[i]? = some o ∧ span = ⟨o + 1, byteLength name.toList⟩ := by
  by_cases full : name = ""
  · rw [full, span?_empty] at h
    contradiction
  · rw [span?_eq full, Option.map_eq_some_iff] at h
    obtain ⟨o, found, rfl⟩ := h
    exact ⟨o, found, rfl⟩

/-- Every span of a name marks it. -/
theorem marks_of_span? {source : String} {i : Nat} {span : Span}
    (h : span? source.toList name i = some span) : span.Marks name source := by
  obtain ⟨o, found, rfl⟩ := exists_of_span? h
  exact Span.marks_of_quotedAt (quotedAt_of_mem (List.mem_of_getElem? found))

theorem span?_eq_none_of_first {i : Nat} (h : span? text name 0 = none) :
    span? text name i = none := by
  rw [← Option.not_isSome_iff_eq_none, span?_isSome_iff] at h ⊢
  exact fun ⟨full, later⟩ => h ⟨full, Nat.zero_lt_of_lt later⟩

/-- Only a name that is not in quotes has no span. -/
theorem span?_eq_none_iff :
    span? text name 0 = none ↔ name = "" ∨ ∀ o, ¬ QuotedAt name.toList text o := by
  rw [← Option.not_isSome_iff_eq_none, span?_isSome_iff, not_and_or, not_not]
  refine or_congr_right ⟨fun none o ⟨quote, kind, at_⟩ => none ?_, fun none some => ?_⟩
  · obtain ⟨r, found, -⟩ := exists_mem_occurrences (inQuotes_ne_nil quote name.toList) at_
    exact List.length_pos_of_mem (mem_quotesFound.mpr ⟨quote, kind, found⟩)
  · exact none _ (quotedAt_of_mem (List.getElem_mem some))

/-- The second span of an identifier begins behind the quotes of the first. -/
theorem span?_apart (identifier : IsIdentifier name) {first second : Span}
    (h : span? text name 0 = some first) (h' : span? text name 1 = some second) :
    first.stop + 2 ≤ second.offset := by
  obtain ⟨o, found, rfl⟩ := exists_of_span? h
  obtain ⟨o', found', rfl⟩ := exists_of_span? h'
  have apart := pairwise_quotesFound (s := text) (identifier.not_mem (c := '"') rfl)
    (identifier.not_mem (c := '\'') rfl)
  obtain ⟨hi, rfl⟩ := List.getElem?_eq_some_iff.mp found
  obtain ⟨hj, rfl⟩ := List.getElem?_eq_some_iff.mp found'
  have behind := List.pairwise_iff_getElem.mp apart 0 1 hi hj Nat.zero_lt_one
  simp only [Span.stop]
  omega

end

/-- The spans by which a violation is shown: of a second declaration both, of a group's name the
second if there is one. -/
def Violation.spans (text : List Char) (v : Violation) : List Span :=
  match v with
  | .duplicateClass name =>
    match span? text name 0, span? text name 1 with
    | some first, some second => [first, second]
    | first?, _ => first?.toList
  | .groupCollision name => (span? text name 1 <|> span? text name 0).toList
  | _ => (span? text v.subject 0).toList

private theorem Violation.map_span_labels (text : List Char) (v : Violation) :
    (v.error text).labels.map Label.span = v.spans text := by
  cases v with
  | duplicateClass name =>
    simp only [Violation.error, Violation.spans]
    cases span? text name 0 <;> cases span? text name 1 <;> rfl
  | groupCollision name =>
    simp only [Violation.error, Violation.spans]
    cases span? text name 1 <|> span? text name 0 <;> rfl
  | identifier name =>
    simp only [Violation.error, Violation.spans, Violation.subject]
    cases span? text name 0 <;> rfl
  | blankType name | unknownClass _ name | blankWrapper name =>
    simp only [Violation.error, Violation.spans, Violation.subject]
    cases span? text name 0 <;> rfl

private theorem Violation.span?_of_mem_spans {text : List Char} {v : Violation} {span : Span}
    (h : span ∈ v.spans text) : ∃ i, span? text v.subject i = some span := by
  cases v with
  | duplicateClass name =>
    simp only [Violation.spans] at h
    split at h
    · next first second found found' =>
      rcases List.mem_pair.mp h with rfl | rfl
      · exact ⟨0, found⟩
      · exact ⟨1, found'⟩
    · exact ⟨0, Option.mem_toList.mp h⟩
  | groupCollision name =>
    simp only [Violation.spans, Option.mem_toList, Option.orElse_eq_orElse, Option.orElse_eq_or,
      Option.or_eq_some_iff] at h
    exact h.elim (fun h => ⟨1, h⟩) fun ⟨_, h⟩ => ⟨0, h⟩
  | _ => exact ⟨0, Option.mem_toList.mp h⟩

private theorem Violation.spans_eq_nil_iff {text : List Char} {v : Violation} :
    v.spans text = [] ↔ span? text v.subject 0 = none := by
  cases v with
  | duplicateClass name =>
    simp only [Violation.spans, Violation.subject]
    split
    · next first second found _ => simp [found]
    · exact Option.toList_eq_nil_iff
  | groupCollision name =>
    simp only [Violation.spans, Violation.subject, Option.toList_eq_nil_iff,
      Option.orElse_eq_orElse, Option.orElse_eq_or, Option.or_eq_none_iff]
    exact and_iff_right_of_imp span?_eq_none_of_first
  | _ => exact Option.toList_eq_nil_iff

private theorem identifier_of_classesViolation? {before cs : List ClassEntry} {name : String}
    (h : classesViolation? before cs = some (.duplicateClass name)) : IsIdentifier name := by
  induction cs generalizing before with
  | nil => contradiction
  | cons c cs ih =>
    simp only [classesViolation?, Option.orElse_eq_orElse, Option.orElse_eq_or,
      Option.or_eq_some_iff] at h
    rcases h with h | ⟨-, h⟩
    · simp only [classViolation?, Option.orElse_eq_orElse, Option.orElse_eq_or,
        Option.or_eq_some_iff, nameViolation?, Option.map_eq_some_iff, Option.map_eq_none_iff,
        reduceCtorEq, and_false, exists_false, false_or] at h
      obtain ⟨valid, h⟩ := h
      split at h
      · cases h
      · obtain ⟨-, rfl⟩ : _ ∧ c.name = name := by simpa using h
        exact Naming.fault?_eq_none_iff.mp valid
    · exact ih h

/-- A class that is declared again has a proper name. -/
theorem identifier_of_duplicate {m : Model} {name : String}
    (h : m.violation? = some (.duplicateClass name)) : IsIdentifier name := by
  simp only [violation?, Option.orElse_eq_orElse, Option.orElse_eq_or, Option.or_eq_some_iff] at h
  rcases h with h | ⟨-, h | ⟨-, h | ⟨-, h⟩⟩⟩
  · exact identifier_of_classesViolation? h
  · obtain ⟨header, -, h⟩ := List.exists_of_findSome?_eq_some h
    simp [headerViolation?, nameViolation?] at h
  · obtain ⟨t, -, h⟩ := List.exists_of_findSome?_eq_some h
    simp only [templateViolation?, Option.orElse_eq_orElse, Option.orElse_eq_or,
      Option.or_eq_some_iff] at h
    rcases h with h | ⟨-, h⟩
    · simp [nameViolation?] at h
    · obtain ⟨listed, -, h⟩ := List.exists_of_findSome?_eq_some h
      simp [listedViolation?, nameViolation?] at h
  · obtain ⟨e, -, h⟩ := List.exists_of_findSome?_eq_some h
    simp [typeViolation?] at h

private theorem Violation.message_error (text : List Char) (v : Violation) :
    ∃ before after, (v.error text).message = before ++ "'" ++ v.subject ++ ("'" ++ after) := by
  cases v with
  | identifier name role fault =>
    have context := @String.append_assoc ("invalid " ++ role.describe) " name " "'"
    exact ⟨"invalid " ++ role.describe ++ " name ", "", congrArg (· ++ name ++ "'") context.symm⟩
  | blankType name => exact ⟨"class ", " has an empty C type", rfl⟩
  | duplicateClass name =>
    refine ⟨"class ", " is declared twice", ?_⟩
    rw [Violation.error]
    split <;> rfl
  | groupCollision name => exact ⟨"free function group ", " has the same name as a class", rfl⟩
  | unknownClass template name =>
    have context :=
      @String.append_assoc ("template '" ++ template) "' references unknown class " "'"
    exact ⟨"template '" ++ template ++ "' references unknown class ", "",
      congrArg (· ++ name ++ "'") context.symm⟩
  | blankWrapper type => exact ⟨"type ", " has an empty wrapper", rfl⟩

theorem validate_eq_error_iff {text : List Char} {m : Model} {e : Error} :
    validate text m = .error e ↔ ∃ v, m.violation? = some v ∧ e = v.error text := by
  rw [validate]
  cases m.violation? with
  | none => simp
  | some v => simp [eq_comm]

/-- A rejected model is shown by the name that breaks the first rule: the message has it in quotes,
every label marks it in the text, and there is none only if it is not in quotes there. The two
declarations of one class are shown apart, in their order. -/
theorem labels_mark_subject {source : String} {m : Model} {e : Error}
    (rejected : validate source.toList m = .error e) :
    ∃ v, m.violation? = some v ∧
      (∃ before after, e.message = before ++ "'" ++ v.subject ++ ("'" ++ after)) ∧
      (∀ l ∈ e.labels, l.span.Marks v.subject source) ∧
      (e.labels = [] ↔ v.subject = "" ∨ ∀ o, ¬ QuotedAt v.subject.toList source.toList o) ∧
      ∀ name first second, e = .duplicateClass name first second →
        v.subject = name ∧ first.stop + 2 ≤ second.offset := by
  obtain ⟨v, broken, rfl⟩ := validate_eq_error_iff.mp rejected
  refine ⟨v, broken, v.message_error _, fun l hl => ?_, ?_, fun name first second twice => ?_⟩
  · have shown := List.mem_map_of_mem (f := Label.span) hl
    rw [Violation.map_span_labels] at shown
    obtain ⟨i, found⟩ := Violation.span?_of_mem_spans shown
    exact marks_of_span? found
  · rw [← List.map_eq_nil_iff (f := Label.span), Violation.map_span_labels,
      Violation.spans_eq_nil_iff, span?_eq_none_iff]
  · cases v with
    | duplicateClass repeated =>
      rw [Violation.error] at twice
      split at twice
      · next f s found found' =>
        obtain ⟨rfl, rfl, rfl⟩ := Error.duplicateClass.inj twice
        exact ⟨rfl, span?_apart (identifier_of_duplicate broken) found found'⟩
      · cases twice
    | _ => cases twice

/-- Two declarations of one class, in quotes of both kinds and among letters of two bytes. -/
theorem labels_mark_redeclared :
    let source := "größe = \"Timer\" # Maß\n'Timer'"
    let classes : List ClassEntry := [⟨"Timer", "lv_timer_t"⟩, ⟨"Timer", "lv_tick_t"⟩]
    validate source.toList { empty with classes } =
        .error (.duplicateClass "Timer" ⟨11, 5⟩ ⟨26, 5⟩) ∧
      Span.Marks ⟨11, 5⟩ "Timer" source ∧ Span.Marks ⟨26, 5⟩ "Timer" source := by
  intro source classes
  have double : occurrences (inQuotes '"' "Timer".toList) source.toList = [10] := by decide +kernel
  have single : occurrences (inQuotes '\'' "Timer".toList) source.toList = [25] := by decide +kernel
  have found : quotesFound "Timer".toList source.toList = [10, 25] := by
    rw [quotesFound, double, single]
    simp
  have full : "Timer" ≠ "" := by decide +kernel
  have rejected : validate source.toList { empty with classes } =
      .error (.duplicateClass "Timer" ⟨11, 5⟩ ⟨26, 5⟩) := by
    refine validate_eq_error_iff.mpr ⟨.duplicateClass "Timer", by decide +kernel, ?_⟩
    rw [Violation.error, span?_eq full, span?_eq full, found]
    rfl
  obtain ⟨v, -, -, marks, -, order⟩ := labels_mark_subject rejected
  obtain ⟨same, -⟩ := order _ _ _ rfl
  rw [same] at marks
  exact ⟨rejected, marks _ List.mem_cons_self, marks _ (List.mem_cons_of_mem _ List.mem_cons_self)⟩

end HeaderWrap.Model
