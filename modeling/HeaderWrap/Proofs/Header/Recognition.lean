import HeaderWrap.Proofs.Header.Clearing

/-! Recognition sees no comments: in a cleared header the same declarations are found, each with
its slices cleared. -/
namespace HeaderWrap.Header
open Text

def Prototype.clear (p : Prototype) : Prototype where
  name := p.name
  result := Header.clear .code p.result
  args := Header.clear .code p.args

namespace Cleared

/-- Apart from what they skip the tokens are the same. -/
theorem bare {m e : Mode} {ts ts' : List Token} (h : Cleared m ts ts' e) :
    ts'.map Token.bare = ts.map Token.bare := by
  induction h with
  | nil => rfl
  | cons head _ ih => rw [List.map_cons, List.map_cons, head.bare, ih]

/-- A test of the kind splits both lists at one place. -/
theorem span {m e : Mode} {ts ts' : List Token} (p : Token → Bool)
    (hp : ∀ t, p t = p t.bare) (h : Cleared m ts ts' e) :
    ∃ n, Cleared m (ts.takeWhile p) (ts'.takeWhile p) n ∧
      Cleared n (ts.dropWhile p) (ts'.dropWhile p) e := by
  induction h with
  | nil m => exact ⟨m, .nil m, .nil m⟩
  | @cons m n e t t' ts ts' head tail ih =>
    have same : p t' = p t := by rw [hp t', head.bare, ← hp t]
    by_cases ht : p t
    · obtain ⟨k, htake, hdrop⟩ := ih
      rw [List.takeWhile_cons_of_pos ht, List.takeWhile_cons_of_pos (same.trans ht),
        List.dropWhile_cons_of_pos ht, List.dropWhile_cons_of_pos (same.trans ht)]
      exact ⟨k, .cons head htake, hdrop⟩
    · rw [List.takeWhile_cons_of_neg ht, List.takeWhile_cons_of_neg (same ▸ ht),
        List.dropWhile_cons_of_neg ht, List.dropWhile_cons_of_neg (same ▸ ht)]
      exact ⟨m, .nil m, .cons head tail⟩

/-- The text of cleared tokens is the cleared text, whatever follows. -/
theorem source {m e : Mode} {ts ts' : List Token} (h : Cleared m ts ts' e)
    (known : ∀ t ∈ ts, t.kind ≠ .other) (s : List Char) :
    Header.clear m (ts.flatMap Token.source ++ s) =
      ts'.flatMap Token.source ++ Header.clear e s := by
  induction h with
  | nil => rfl
  | @cons m n e t t' ts ts' head tail ih =>
    have ih := ih fun t ht => known t (List.mem_cons_of_mem _ ht)
    rw [List.flatMap_cons, List.flatMap_cons, List.append_assoc, List.append_assoc,
      head.source (known t List.mem_cons_self), ih]

/-- Joining the lines keeps the correspondence. -/
theorem joinLines {m e : Mode} {ts ts' : List Token} (h : Cleared m ts ts' e)
    (known : ∀ t ∈ ts, t.kind ≠ .other) :
    ∃ e', Cleared m (joinLines ts) (joinLines ts') e' := by
  induction h with
  | nil m => exact ⟨m, .nil m⟩
  | @cons m n e t t' ts ts' head tail ih =>
    obtain ⟨e', ih⟩ := ih fun t ht => known t (List.mem_cons_of_mem _ ht)
    rw [Header.joinLines, Header.joinLines, head.kind_eq]
    split
    · refine ih.skip (head.source (known t List.mem_cons_self)) fun _ => ⟨?_, ?_⟩
      · simp [Token.source, head.text]
      · simp [Token.source, head.text_eq, head.text]
    · exact ⟨e', .cons head ih⟩

theorem dropLast {m e : Mode} {ts ts' : List Token} (h : Cleared m ts ts' e) :
    ∃ e', Cleared m ts.dropLast ts'.dropLast e' := by
  induction h with
  | nil m => exact ⟨m, .nil m⟩
  | @cons m n e t t' ts ts' head tail ih =>
    obtain ⟨e', ih⟩ := ih
    cases tail with
    | nil => exact ⟨m, .nil m⟩
    | cons => exact ⟨e', .cons head ih⟩

/-- As many qualifiers are dropped from both lists. -/
theorem dropQualifiers {m e : Mode} {ts ts' : List Token} (k : Nat) (h : Cleared m ts ts' e) :
    ∃ n, Cleared n (dropQualifiers k ts) (dropQualifiers k ts') e := by
  induction k generalizing m ts ts' with
  | zero =>
    refine ⟨m, ?_⟩
    simpa [Header.dropQualifiers] using h
  | succ k ih =>
    cases h with
    | nil => exact ⟨_, .nil _⟩
    | @cons _ n _ t t' ts ts' head tail =>
      cases tail with
      | nil => exact ⟨m, .cons head (.nil _)⟩
      | @cons _ n' _ u u' us us' head' tail' =>
        rw [Header.dropQualifiers, Header.dropQualifiers, head.kind_eq, head.text_eq,
          head'.kind_eq]
        split
        · exact ih (.cons head' tail')
        · exact ⟨m, .cons head (.cons head' tail')⟩

/-- The text from the first to the last token is cleared with them. -/
theorem spanText {m e : Mode} {t t' : Token} {ts ts' : List Token}
    (h : Cleared m (t :: ts) (t' :: ts') e) (plain : t.kind ≠ .newline)
    (known : ∀ u ∈ t :: ts, u.kind ≠ .other) :
    spanText (t' :: ts') = Header.clear .code (spanText (t :: ts)) := by
  cases h with
  | cons head tail =>
    have hn := head.code plain
    subst hn
    have kept := head.text_kept plain (known t List.mem_cons_self) (ts.flatMap Token.source)
    have rest := tail.source (fun u hu => known u (List.mem_cons_of_mem _ hu)) []
    simp only [List.append_nil, clear_nil] at rest
    rw [Header.spanText, Header.spanText, kept, rest, head.text_eq]

end Cleared

theorem kind_of_mem_skip {a : List Char} {u : Token} {ts : List Token}
    (h : u ∈ Token.skip a ts) : ∃ t ∈ ts, t.kind = u.kind := by
  cases ts with
  | nil => simp [Token.skip] at h
  | cons t ts =>
    rcases List.mem_cons.mp h with rfl | h
    · exact ⟨t, List.mem_cons_self, rfl⟩
    · exact ⟨u, List.mem_cons_of_mem _ h, rfl⟩

private theorem kind_of_mem_joinLines {u : Token} {ts : List Token} (h : u ∈ joinLines ts) :
    u.kind ≠ .newline ∧ ∃ t ∈ ts, t.kind = u.kind := by
  induction ts generalizing u with
  | nil => simp [joinLines] at h
  | cons t ts ih =>
    rw [joinLines] at h
    split at h
    · obtain ⟨v, hv, hk⟩ := kind_of_mem_skip h
      obtain ⟨plain, w, hw, hw'⟩ := ih hv
      exact ⟨hk ▸ plain, w, List.mem_cons_of_mem _ hw, hw'.trans hk⟩
    · rename_i plain
      rcases List.mem_cons.mp h with rfl | h
      · exact ⟨plain, u, List.mem_cons_self, rfl⟩
      · obtain ⟨plain, w, hw, hw'⟩ := ih h
        exact ⟨plain, w, List.mem_cons_of_mem _ hw, hw'⟩

private theorem dropQualifiers_suffix (k : Nat) (ts : List Token) : dropQualifiers k ts <:+ ts := by
  fun_induction dropQualifiers k ts with
  | case1 k t u ts _ ih => exact ih.trans (List.suffix_cons t (u :: ts))
  | case2 => exact List.suffix_rfl
  | case3 => exact List.suffix_rfl

private theorem readHead_cleared {m e : Mode} {ts ts' : List Token} (h : Cleared m ts ts' e)
    (known : ∀ t ∈ ts, t.kind ≠ .newline ∧ t.kind ≠ .other) :
    readHead ts' = (readHead ts).map fun r => (r.1, clear .code r.2) := by
  obtain ⟨e₁, front⟩ := h.dropLast
  obtain ⟨n, result⟩ := front.dropQualifiers maxQualifiers
  have inside : ∀ t ∈ dropQualifiers maxQualifiers ts.dropLast,
      t.kind ≠ .newline ∧ t.kind ≠ .other := fun t ht =>
    known t (List.dropLast_subset _ ((dropQualifiers_suffix _ _).mem ht))
  have last : ts'.getLast?.map Token.bare = ts.getLast?.map Token.bare := by
    rw [← List.getLast?_map, ← List.getLast?_map, h.bare]
  unfold readHead
  generalize dropQualifiers maxQualifiers ts.dropLast = d at result inside
  generalize dropQualifiers maxQualifiers ts'.dropLast = d' at result
  cases hl : ts.getLast? with
  | none =>
    have hl' : ts'.getLast? = none := by simpa [hl] using last
    simp [hl']
  | some l =>
    obtain ⟨l', hl', same⟩ : ∃ l', ts'.getLast? = some l' ∧ l'.bare = l.bare := by
      simpa [hl] using last
    have kind : l'.kind = l.kind := congrArg (fun t => t.kind) same
    have text : l'.text = l.text := congrArg (fun t => t.text) same
    cases result with
    | nil => simp [hl']
    | @cons _ _ _ t t' ts ts' head tail =>
      have span := (Cleared.cons head tail).spanText (inside t List.mem_cons_self).1
        fun u hu => (inside u hu).2
      simp only [hl', kind, text, head.kind_eq, head.text_eq, span]
      split
      · rfl
      · rfl

private theorem readEnd_cleared {m e : Mode} {ts ts' : List Token} (h : Cleared m ts ts' e) :
    Option.Rel (fun rest rest' => ∃ n, Cleared n rest rest' e) (readEnd ts) (readEnd ts') := by
  cases h with
  | nil => exact .some ⟨_, .nil _⟩
  | @cons _ n _ t t' ts ts' head tail =>
    simp only [readEnd, head.kind_eq]
    split
    · exact .some ⟨n, tail⟩
    · split
      · cases tail with
        | nil => exact .some ⟨_, .nil _⟩
        | @cons _ n' _ u u' us us' head' tail' =>
          simp only [head'.kind_eq]
          split
          · exact .some ⟨n', tail'⟩
          · exact .none
      · exact .none

private theorem known_of_isHeadToken {t : Token} (h : isHeadToken t) : t.kind ≠ .other := by
  intro hk
  simp [isHeadToken, hk] at h

private theorem known_of_isArgToken {t : Token} (h : isArgToken t) : t.kind ≠ .other := by
  intro hk
  simp [isArgToken, hk] at h

/-- The same declaration is read from both lists, with its slices cleared. -/
theorem readPrototype_cleared {m e : Mode} {ts ts' : List Token} (h : Cleared m ts ts' e) :
    Option.Rel (fun r r' => r'.1 = r.1.clear ∧ ∃ n, Cleared n r.2 r'.2 e)
      (readPrototype ts) (readPrototype ts') := by
  obtain ⟨n, front, back⟩ := h.span isHeadToken fun _ => rfl
  have known : ∀ t ∈ ts.takeWhile isHeadToken, t.kind ≠ .other := fun t ht =>
    known_of_isHeadToken (List.all_eq_true.mp List.all_takeWhile t ht)
  obtain ⟨_, joined⟩ := front.joinLines known
  have head := readHead_cleared joined fun t ht => by
    obtain ⟨plain, u, hu, hk⟩ := kind_of_mem_joinLines ht
    exact ⟨plain, hk ▸ known u hu⟩
  unfold readPrototype
  generalize ts.dropWhile isHeadToken = d at back
  generalize ts'.dropWhile isHeadToken = d' at back
  cases back with
  | nil => exact .none
  | @cons _ k _ lparen lparen' us us' opening args =>
    simp only [opening.kind_eq, head]
    split
    · rename_i isOpen
      have hk : k = .code := opening.code (by simp [isOpen])
      subst hk
      obtain ⟨k, inner, outer⟩ := args.span isArgToken fun _ => rfl
      have slice := inner.source fun t ht =>
        known_of_isArgToken (List.all_eq_true.mp List.all_takeWhile t ht)
      generalize us.dropWhile isArgToken = v at outer
      generalize us'.dropWhile isArgToken = v' at outer
      cases readHead (joinLines (ts.takeWhile isHeadToken)) with
      | none => exact .none
      | some r =>
        cases outer with
        | nil => exact .none
        | @cons _ l _ rparen rparen' ws ws' closing after =>
          simp only [Option.map_some, closing.kind_eq]
          split
          · rename_i isClose
            have gap := closing.gap (by simp [isClose]) []
            rw [List.append_nil, clear_nil, List.append_nil] at gap
            have ending := readEnd_cleared after
            generalize readEnd ws = x at ending
            generalize readEnd ws' = x' at ending
            cases ending with
            | none => exact .none
            | some next => exact .some ⟨by simp [Prototype.clear, slice, gap], next⟩
          · exact .none
    · exact .none

private theorem nextLine_cleared {m e : Mode} {ts ts' : List Token} (h : Cleared m ts ts' e) :
    ∃ n, Cleared n (nextLine ts) (nextLine ts') e := by
  obtain ⟨n, -, back⟩ := h.span (fun t => decide (t.kind ≠ .newline)) fun _ => rfl
  unfold nextLine
  generalize ts.dropWhile (fun t => decide (t.kind ≠ .newline)) = d at back
  generalize ts'.dropWhile (fun t => decide (t.kind ≠ .newline)) = d' at back
  cases back with
  | nil => exact ⟨e, .nil e⟩
  | cons head tail => exact ⟨_, tail⟩

/-- The same declarations are found in both lists. -/
theorem prototypesOf_cleared {m e : Mode} {ts ts' : List Token} (h : Cleared m ts ts' e) :
    prototypesOf ts' = (prototypesOf ts).map Prototype.clear := by
  fun_induction prototypesOf ts generalizing m ts' with
  | case1 =>
    cases h
    simp [prototypesOf]
  | case2 t ts newline ih =>
    cases h with
    | cons head tail =>
      rw [prototypesOf, if_pos (head.kind_eq.trans newline)]
      exact ih tail
  | case3 t ts plain p rest found ih =>
    have same := readPrototype_cleared h
    cases h with
    | cons head tail =>
      rw [found] at same
      generalize hx : readPrototype _ = x at same
      cases same with
      | some hp =>
        obtain ⟨hp, n, hrest⟩ := hp
        rw [prototypesOf_cons _ (head.kind_eq ▸ plain), hx]
        simp only [hp, ih hrest, List.map_cons]
  | case4 t ts plain found ih =>
    have same := readPrototype_cleared h
    obtain ⟨n, next⟩ := nextLine_cleared h
    cases h with
    | cons head tail =>
      rw [found] at same
      generalize hx : readPrototype _ = x at same
      cases same with
      | none =>
        rw [prototypesOf_cons _ (head.kind_eq ▸ plain), hx]
        exact ih next

/-- In a cleared header the same declarations stand, each with its slices cleared. -/
theorem prototypes_withoutComments (text : String) :
    prototypes (withoutComments text) = (prototypes text).map Prototype.clear := by
  obtain ⟨e, h⟩ := cleared_tokens .code text.toList
  rw [prototypes, prototypes, withoutComments, String.toList_ofList, prototypesOf_cleared h]

/-- Clearing leaves the tokens of a fragment alone. -/
theorem lexemes_clear (s : List Char) : lexemes (clear .code s) = lexemes s := by
  obtain ⟨e, h⟩ := cleared_tokens .code s
  have filtered (ts : List Token) : (ts.filter (·.kind ≠ .newline)).map Token.bare =
      (ts.map Token.bare).filter (·.kind ≠ .newline) := by
    rw [List.filter_map]
    rfl
  rw [lexemes, lexemes, filtered, filtered, h.bare]

end HeaderWrap.Header
