import HeaderWrap.Proofs.Header.Clearing
import HeaderWrap.Proofs.Header.Comments

/-! Which characters of a text belong to its tokens: in code all but blanks, in comments only newlines. -/
namespace HeaderWrap.Header
open Text

/-- The characters of a text, each with the kind of the token that it belongs to. -/
def marks : List Token → List Char → List (Char × Option TokenKind)
  | [], s => s.map (·, none)
  | t :: ts, s =>
    t.skipped.map (·, none) ++ (t.text.map (·, some t.kind) ++ marks ts (s.drop t.source.length))

def kindIn (c : Char) (commented : Bool) : Option TokenKind :=
  if c = '\n' then some .newline
  else if commented ∨ isBlank c then none
  else if isWordChar c then some .word
  else some (Token.kindOf c)

section
variable {ts : List Token} {s : List Char}

private theorem marks_skip (a : List Char) (ts : List Token) (s : List Char) :
    marks (Token.skip a ts) (a ++ s) = a.map (·, none) ++ marks ts s := by
  cases ts with
  | nil => rw [Token.skip, marks, marks, List.map_append]
  | cons t ts =>
    have rest : (a ++ s).drop (a.length + t.source.length) = s.drop t.source.length := by
      rw [← List.drop_drop, List.drop_left]
    have source : { t with skipped := a ++ t.skipped : Token }.source = a ++ t.source := by
      simp [Token.source]
    rw [Token.skip, marks, marks, source, List.length_append, rest]
    simp only [List.map_append, List.append_assoc]

private theorem marks_cons (c : Char) (kind : TokenKind) (ts : List Token) (s : List Char) :
    marks (⟨[], kind, [c]⟩ :: ts) (c :: s) = (c, some kind) :: marks ts s := rfl

private theorem marks_consWord (c : Char) (ts : List Token) (s : List Char) :
    marks (Token.consWord c ts) (c :: s) = (c, some .word) :: marks ts s := by
  cases ts with
  | nil => rfl
  | cons t ts =>
    rw [Token.consWord]
    split
    · rename_i joined
      simp [marks, Token.source, joined.1, joined.2]
    · exact marks_cons c .word (t :: ts) s

/-- What is skipped before the first token belongs to none. -/
theorem marks_skipped {t : Token} {i : Nat} (ts : List Token) (s : List Char)
    (skipped : i < t.skipped.length) : ∃ c, (marks (t :: ts) s)[i]? = some (c, none) := by
  refine ⟨t.skipped[i], ?_⟩
  rw [marks, List.getElem?_append_left (by simpa using skipped), List.getElem?_map,
    List.getElem?_eq_getElem skipped]
  rfl

theorem marks_text {t : Token} {i : Nat} (ts : List Token) (s : List Char)
    (behind : t.skipped.length ≤ i) (within : i < t.source.length) :
    ∃ c, (marks (t :: ts) s)[i]? = some (c, some t.kind) := by
  have inside : i - t.skipped.length < t.text.length := by
    rw [Token.source, List.length_append] at within
    omega
  refine ⟨t.text[i - t.skipped.length], ?_⟩
  rw [marks, List.getElem?_append_right (by simpa using behind), List.length_map,
    List.getElem?_append_left (by simpa using inside), List.getElem?_map,
    List.getElem?_eq_getElem inside]
  rfl

/-- Behind the first token the marks are those of the text that follows it. -/
theorem marks_rest {t : Token} {i : Nat} (ts : List Token) (s : List Char)
    (behind : t.source.length ≤ i) :
    (marks (t :: ts) s)[i]? = (marks ts (s.drop t.source.length))[i - t.source.length]? := by
  have length : t.source.length = t.skipped.length + t.text.length := List.length_append
  rw [marks, List.getElem?_append_right (by rw [List.length_map]; omega), List.length_map,
    List.getElem?_append_right (by rw [List.length_map]; omega), List.length_map, Nat.sub_sub, ← length]

private theorem marks_line {body : List Char} (inside : '\n' ∉ body) (ends : ∀ c ∈ s.head?, c = '\n') :
    marks (tokens .lineComment (body ++ s)) (body ++ s) =
      body.map (fun c => (c, kindIn c true)) ++ marks (tokens .code s) s := by
  induction body with
  | nil =>
    cases s with
    | nil => rfl
    | cons c s =>
      obtain rfl := ends c rfl
      have newline : tokens .lineComment ('\n' :: s) = tokens .code ('\n' :: s) := by
        rw [tokens_code_cons_of_ne s (by decide), if_pos rfl]
        rfl
      rw [List.nil_append, newline, List.map_nil, List.nil_append]
  | cons c body ih =>
    rw [List.mem_cons, not_or] at inside
    have plain : c ≠ '\n' := Ne.symm inside.1
    have none : kindIn c true = none := by simp [kindIn, plain]
    have skipped := marks_skip [c] (tokens .lineComment (body ++ s)) (body ++ s)
    rw [ih inside.2] at skipped
    rw [List.cons_append, tokens, if_neg plain, List.map_cons, none]
    exact skipped

private theorem marks_block_cons {c : Char} (close : ∀ r, c = '*' → s = '/' :: r → False) :
    marks (tokens .blockComment (c :: s)) (c :: s) =
      (c, kindIn c true) :: marks (tokens .blockComment s) s := by
  rw [tokens]
  · split
    · rename_i newline
      subst newline
      exact marks_cons '\n' .newline _ s
    · rename_i plain
      have none : kindIn c true = none := by simp [kindIn, plain]
      rw [none]
      exact marks_skip [c] _ s
  · exact close

private theorem not_close {c : Char} {body after : List Char} (first : ¬ ['*', '/'] <:+: c :: body)
    (start : ∀ d ∈ after.head?, body = [] → d ≠ '/') :
    ∀ r, c = '*' → body ++ after = '/' :: r → False := by
  rintro r rfl slash
  cases body with
  | nil =>
    rw [List.nil_append] at slash
    exact start '/' (by rw [slash]; rfl) rfl rfl
  | cons d body =>
    obtain ⟨rfl, -⟩ := List.cons.inj slash
    exact first ⟨[], body, rfl⟩

private theorem marks_block {body : List Char} (first : ¬ ['*', '/'] <:+: body ++ ['*']) :
    marks (tokens .blockComment (body ++ ['*', '/'] ++ s)) (body ++ ['*', '/'] ++ s) =
      (body ++ ['*', '/']).map (fun c => (c, kindIn c true)) ++ marks (tokens .code s) s := by
  induction body with
  | nil => exact marks_skip ['*', '/'] _ s
  | cons c body ih =>
    have later : ¬ ['*', '/'] <:+: body ++ ['*'] := fun inside =>
      first (inside.trans (List.suffix_cons c _).isInfix)
    have here : ¬ ['*', '/'] <:+: c :: body := fun inside =>
      first (inside.trans (List.prefix_append (c :: body) ['*']).isInfix)
    simp only [List.cons_append, List.append_assoc, List.map_cons] at ih ⊢
    rw [marks_block_cons (not_close here (by simp)), ih later]

private theorem marks_unclosed {body : List Char} (none : ¬ ['*', '/'] <:+: body) :
    marks (tokens .blockComment body) body = body.map fun c => (c, kindIn c true) := by
  induction body with
  | nil => rfl
  | cons c body ih =>
    have later : ¬ ['*', '/'] <:+: body := fun inside =>
      none (inside.trans (List.suffix_cons c _).isInfix)
    have here : ∀ r, c = '*' → body ++ [] = '/' :: r → False := not_close none (by simp)
    rw [List.append_nil] at here
    rw [marks_block_cons here, ih later, List.map_cons]

/-- Behind a comment the text goes on as code. -/
theorem marks_comment {w : List Char} (h : IsComment w s) :
    marks (tokens .code (w ++ s)) (w ++ s) =
      w.map (fun c => (c, kindIn c true)) ++ marks (tokens .code s) s := by
  cases h with
  | @line body s inside ends =>
    have opened := marks_skip ['/', '/'] (tokens .lineComment (body ++ s)) (body ++ s)
    rw [marks_line inside ends] at opened
    exact opened
  | @block body s first =>
    have opened := marks_skip ['/', '*'] (tokens .blockComment (body ++ ['*', '/'] ++ s))
      (body ++ ['*', '/'] ++ s)
    rw [marks_block first] at opened
    exact opened
  | @unclosed body none =>
    have opened := marks_skip ['/', '*'] (tokens .blockComment body) body
    rw [marks_unclosed none] at opened
    rw [List.append_nil, tokens, marks, List.map_nil, List.append_nil]
    exact opened

/-- A character of code is a blank or belongs to a token. -/
theorem marks_code {c : Char} (plain : ¬ OpensComment (c :: s)) :
    marks (tokens .code (c :: s)) (c :: s) = (c, kindIn c false) :: marks (tokens .code s) s := by
  have line : ∀ r, c = '/' → s = '/' :: r → False := by
    rintro r rfl rfl
    exact plain (.inl ⟨r, rfl⟩)
  have block : ∀ r, c = '/' → s = '*' :: r → False := by
    rintro r rfl rfl
    exact plain (.inr ⟨r, rfl⟩)
  rw [tokens_code_cons line block, kindIn]
  by_cases newline : c = '\n'
  · subst newline
    rfl
  · rw [if_neg newline, if_neg newline]
    by_cases blank : isBlank c
    · rw [if_pos blank, if_pos (.inr blank)]
      exact marks_skip [c] _ s
    · have code : ¬ (false = true ∨ isBlank c = true) := by simpa using blank
      rw [if_neg blank, if_neg code]
      by_cases word : isWordChar c
      · rw [if_pos word, if_pos word, marks_consWord]
      · rw [if_neg word, if_neg word, marks_cons]

/-- Which characters belong to tokens, and of which kind, is told by the pieces of a text. -/
theorem marks_tokens {ps : List Piece} (h : Sections ps s) :
    marks (tokens .code s) s = (charsOf ps).map fun q => (q.1, kindIn q.1 q.2) := by
  induction h with
  | nil => rfl
  | code plain tail ih =>
    rw [marks_code plain, ih]
    rfl
  | @comment w s ps here tail ih =>
    have chars : charsOf (.comment w :: ps) = w.map (·, true) ++ charsOf ps := rfl
    rw [marks_comment here, ih, chars, List.map_append, List.map_map]
    rfl

end

theorem kindIn_eq_none_iff {c : Char} {commented : Bool} :
    kindIn c commented = none ↔ c ≠ '\n' ∧ (commented ∨ isBlank c) := by
  unfold kindIn
  split
  · simp_all
  · split
    · simp_all
    · split <;> simp_all

theorem kindIn_eq_newline_iff {c : Char} {commented : Bool} :
    kindIn c commented = some .newline ↔ c = '\n' := by
  unfold kindIn
  split
  · simp_all
  · rename_i plain
    refine iff_of_false ?_ plain
    split
    · simp
    · split
      · simp
      · intro kind
        exact plain (eq_of_kindOf (d := '\n') (by decide) (Option.some.inj kind))

/-- In a comment only newlines are tokens. -/
theorem code_of_kindIn {c : Char} {commented : Bool} {kind : TokenKind}
    (found : kindIn c commented = some kind) (plain : kind ≠ .newline) : commented = false := by
  unfold kindIn at found
  split at found
  · exact absurd (Option.some.inj found).symm plain
  · split at found
    · contradiction
    · simp_all

end HeaderWrap.Header
