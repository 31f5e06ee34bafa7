import Mathlib.Data.List.TakeWhile
import HeaderWrap.Proofs.Header.Boundary
import HeaderWrap.Proofs.Header.Recognition
import HeaderWrap.Proofs.Lists

/-! Headers one behind the other: if the first ends where no declaration goes on, both declare what
they declare alone. -/
namespace HeaderWrap.Header
open Text

def isStop (t : Token) : Bool := t.kind = .semi || t.kind = .rparen || t.kind = .other

/-- Tokens behind which no declaration goes on: the last one, newlines apart, is a stop. -/
def Closed (ts : List Token) : Prop :=
  ∀ t ∈ (ts.filter (·.kind ≠ .newline)).getLast?, isStop t

instance (ts : List Token) : Decidable (Closed ts) := by unfold Closed; infer_instance

theorem Closed.suffix {ts us : List Token} (closed : Closed ts) (h : us <:+ ts) : Closed us := by
  obtain ⟨front, rfl⟩ := h
  intro t ht
  refine closed t ?_
  rw [List.filter_append, List.getLast?_append, ht]
  rfl

private theorem Closed.exists_stop {ts : List Token} (closed : Closed ts)
    (full : ∃ t ∈ ts, t.kind ≠ .newline) : ∃ t ∈ ts, isStop t := by
  obtain ⟨t, ht, plain⟩ := full
  have some : ts.filter (·.kind ≠ .newline) ≠ [] := by
    refine List.ne_nil_of_mem (a := t) ?_
    rw [List.mem_filter]
    exact ⟨ht, decide_eq_true plain⟩
  obtain ⟨u, hu⟩ := Option.isSome_iff_exists.mp (List.getLast?_isSome.mpr some)
  exact ⟨u, (List.mem_filter.mp (List.mem_of_getLast? hu)).1, closed u hu⟩

private theorem exists_dropWhile_eq_cons {ts : List Token} (stop : ∃ t ∈ ts, isStop t)
    {p : Token → Bool} (hp : ∀ t, p t → isStop t = false) :
    ∃ t rest, ts.dropWhile p = t :: rest := by
  refine List.exists_cons_of_ne_nil fun all => ?_
  obtain ⟨t, ht, stop⟩ := stop
  have go := hp t (List.dropWhile_eq_nil_iff.mp all t ht)
  rw [stop] at go
  contradiction

private theorem isStop_of_isHeadToken (t : Token) (h : isHeadToken t) : isStop t = false := by
  simp only [isHeadToken, Bool.or_eq_true, decide_eq_true_eq] at h
  rcases h with (h | h) | h <;> simp [isStop, h]

private theorem isStop_of_isArgToken (t : Token) (h : isArgToken t) : isStop t = false := by
  simp only [isArgToken, Bool.or_eq_true, decide_eq_true_eq] at h
  rcases h with (((h | h) | h) | h) | h <;> simp [isStop, h]

/-- What a scan has left when a newline and more follow, where it had `rest` left before: it stopped
in front of the newline, or it took the newline for its end. -/
def Resumes (nl : Token) (us rest rest' : List Token) : Prop :=
  rest' = rest ++ nl :: us ∨ rest = [] ∧ rest' = us

section Line
variable {nl : Token} (newline : nl.kind = .newline) (us : List Token)
include newline

private theorem readEnd_append (ts : List Token) :
    Option.Rel (Resumes nl us) (readEnd ts) (readEnd (ts ++ nl :: us)) := by
  cases ts with
  | nil =>
    have last : readEnd ([] ++ nl :: us) = some us := by simp [readEnd, newline]
    rw [last]
    exact .some (.inr ⟨rfl, rfl⟩)
  | cons t ts =>
    simp only [List.cons_append, readEnd]
    split
    · exact .some (.inl rfl)
    · split
      · cases ts with
        | nil =>
          simp only [List.nil_append, if_pos newline]
          exact .some (.inr ⟨rfl, rfl⟩)
        | cons u ts =>
          simp only [List.cons_append]
          split
          · exact .some (.inl rfl)
          · exact .none
      · exact .none

private theorem nextLine_append (ts : List Token) :
    Resumes nl us (nextLine ts) (nextLine (ts ++ nl :: us)) := by
  rw [nextLine, nextLine]
  cases hd : ts.dropWhile fun t => decide (t.kind ≠ .newline) with
  | nil =>
    refine Or.inr ⟨rfl, ?_⟩
    rw [List.dropWhile_append, hd]
    simp [newline]
  | cons t rest =>
    rw [(span_append hd _).2]
    exact Or.inl rfl

/-- A declaration among closed tokens is read as before if a newline follows them. -/
theorem readPrototype_append {ts : List Token} (closed : Closed ts)
    (full : ∃ t ∈ ts, t.kind ≠ .newline) :
    Option.Rel (fun r r' => r'.1 = r.1 ∧ Resumes nl us r.2 r'.2)
      (readPrototype ts) (readPrototype (ts ++ nl :: us)) := by
  obtain ⟨lparen, rest, head⟩ := exists_dropWhile_eq_cons (closed.exists_stop full)
    isStop_of_isHeadToken
  obtain ⟨take, drop⟩ := span_append head (nl :: us)
  unfold readPrototype
  rw [head, drop, take]
  simp only
  split
  · rename_i isOpen
    -- The parenthesis is no stop. So one follows, and the parameter list ends there at the latest.
    have stop : ∃ t ∈ rest, isStop t := by
      have tail : lparen :: rest <:+ ts := head ▸ List.dropWhile_suffix _
      obtain ⟨t, ht, stop⟩ := (closed.suffix tail).exists_stop
        ⟨lparen, List.mem_cons_self, by simp [isOpen]⟩
      rcases List.mem_cons.mp ht with rfl | ht
      · simp [isStop, isOpen] at stop
      · exact ⟨t, ht, stop⟩
    obtain ⟨rparen, after, args⟩ := exists_dropWhile_eq_cons stop isStop_of_isArgToken
    obtain ⟨take, drop⟩ := span_append args (nl :: us)
    rw [args, drop, take]
    cases readHead (joinLines (ts.takeWhile isHeadToken)) with
    | none => exact .none
    | some r =>
      simp only
      split
      · have ending := readEnd_append newline us after
        generalize readEnd after = x at ending
        generalize readEnd (after ++ nl :: us) = x' at ending
        cases ending with
        | none => exact .none
        | some next => exact .some ⟨rfl, next⟩
      · exact .none
  · exact .none

end Line

/-- Closed tokens and those behind the next newline declare what they declare alone. -/
theorem prototypesOf_append {nl : Token} (newline : nl.kind = .newline) {ts : List Token}
    (closed : Closed ts) (us : List Token) :
    prototypesOf (ts ++ nl :: us) = prototypesOf ts ++ prototypesOf us := by
  have skip : prototypesOf (nl :: us) = prototypesOf us := by rw [prototypesOf, if_pos newline]
  have resume {rest rest' : List Token} (h : Resumes nl us rest rest')
      (ih : prototypesOf (rest ++ nl :: us) = prototypesOf rest ++ prototypesOf us) :
      prototypesOf rest' = prototypesOf rest ++ prototypesOf us := by
    rcases h with rfl | ⟨rfl, rfl⟩
    · exact ih
    · rw [prototypesOf, List.nil_append]
  fun_induction prototypesOf ts with
  | case1 => exact skip
  | case2 t ts blank ih =>
    rw [List.cons_append, prototypesOf, if_pos blank]
    exact ih (closed.suffix (List.suffix_cons t ts))
  | case3 t ts plain p rest found ih =>
    have same := readPrototype_append newline us closed ⟨t, List.mem_cons_self, plain⟩
    rw [found] at same
    generalize hx : readPrototype _ = x at same
    cases same with
    | some h =>
      obtain ⟨rfl, next⟩ := h
      rw [List.cons_append] at hx ⊢
      rw [prototypesOf_cons _ plain, hx]
      simp only [List.cons_append]
      obtain ⟨lparen, after, outer, inner⟩ := readPrototype_suffix found
      have behind := (inner.trans (List.suffix_cons lparen after)).trans outer
      rw [resume next (ih (closed.suffix behind))]
  | case4 t ts plain found ih =>
    have same := readPrototype_append newline us closed ⟨t, List.mem_cons_self, plain⟩
    rw [found] at same
    generalize hx : readPrototype _ = x at same
    cases same with
    | none =>
      have next := nextLine_append newline us (t :: ts)
      rw [List.cons_append] at hx next ⊢
      rw [prototypesOf_cons _ plain, hx]
      exact resume next (ih (closed.suffix (nextLine_suffix _)))

/-- The tokens of a text behind a newline are read there as they are alone. -/
theorem tokens_append_newline (a b : List Char) (unopened : endMode .code a ≠ .blockComment) :
    ∃ nl, nl.kind = .newline ∧
      tokens .code (a ++ '\n' :: b) = tokens .code a ++ nl :: tokens .code b := by
  have line : tokens (endMode .code a) ('\n' :: b) = ⟨[], .newline, ['\n']⟩ :: tokens .code b := by
    cases hm : endMode .code a with
    | code => rw [tokens_code_cons_of_ne _ (by decide), if_pos rfl]
    | lineComment => rfl
    | blockComment => exact absurd hm unopened
  have hd : IsBreak '\n' := ⟨by decide, by decide, by decide⟩
  obtain ⟨gap, -, all⟩ := tokens_append_break .code a hd b
  rw [line] at all
  exact ⟨_, rfl, all⟩

/-- Behind a header that ends in no block comment, and where no declaration goes on, another header
declares on a new line what it declares alone. -/
theorem prototypes_append (a b : String) (unopened : endMode .code a.toList ≠ .blockComment)
    (closed : Closed (tokens .code a.toList)) :
    prototypes (a ++ "\n" ++ b) = prototypes a ++ prototypes b := by
  obtain ⟨nl, newline, all⟩ := tokens_append_newline a.toList b.toList unopened
  have text : (a ++ "\n" ++ b).toList = a.toList ++ '\n' :: b.toList := by simp
  rw [prototypes, text, all, prototypesOf_append newline closed, prototypes, prototypes]

/-- Whatever stands in front of such a place hides, repeats and changes no declaration behind it,
and the other way round. -/
theorem signatures_append (a b : String) (unopened : endMode .code a.toList ≠ .blockComment)
    (closed : Closed (tokens .code a.toList)) :
    signatures (a ++ "\n" ++ b) = signatures a ++ signatures b := by
  rw [signatures, prototypes_append a b unopened closed, List.map_append, signatures, signatures]

theorem signatures_behind_body :
    signatures ("int lv_f(lv_t * t)\n\x7b return lv_f2( /* ( */ t, \x7d // void lv_f3(" ++ "\n" ++
      "void lv_g(int x,\n  int y)") =
      [⟨"lv_f", "int", ["lv_t * t"]⟩, ⟨"lv_g", "void", ["int x", "int y"]⟩] :=
  (signatures_append "int lv_f(lv_t * t)\n\x7b return lv_f2( /* ( */ t, \x7d // void lv_f3("
    "void lv_g(int x,\n  int y)" (by decide +kernel) (by decide +kernel)).trans (by decide +kernel)

end HeaderWrap.Header
