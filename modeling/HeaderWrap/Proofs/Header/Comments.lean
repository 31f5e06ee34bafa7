import Mathlib.Data.List.TakeWhile
import HeaderWrap.Proofs.Lists

/-! Where the comments of a header stand. Every text is cut in one way into comments and characters of
code, the leftmost comment first. -/
namespace HeaderWrap.Header

/-- A comment begins where a text begins, unless the place lies in a comment itself. -/
def OpensComment (s : List Char) : Prop := ['/', '/'] <+: s ∨ ['/', '*'] <+: s

/-- A comment, when some text follows it: up to the end of the line; up to the first closing mark
behind the opening one; up to the end of the text if there is no closing mark. -/
inductive IsComment : List Char → List Char → Prop
  | line {body after : List Char} (inside : '\n' ∉ body) (ends : ∀ c ∈ after.head?, c = '\n') :
      IsComment ('/' :: '/' :: body) after
  | block {body : List Char} (after : List Char) (first : ¬ ['*', '/'] <:+: body ++ ['*']) :
      IsComment ('/' :: '*' :: (body ++ ['*', '/'])) after
  | unclosed {body : List Char} (none : ¬ ['*', '/'] <:+: body) :
      IsComment ('/' :: '*' :: body) []

inductive Piece where
  | code (c : Char)
  | comment (text : List Char)
  deriving DecidableEq, Repr

def Piece.chars : Piece → List (Char × Bool)
  | .code c => [(c, false)]
  | .comment text => text.map (·, true)

/-- A text is cut into pieces. No comment begins at a character of code. -/
inductive Sections : List Piece → List Char → Prop
  | nil : Sections [] []
  | code {c : Char} {s : List Char} {ps : List Piece} (plain : ¬ OpensComment (c :: s))
      (tail : Sections ps s) : Sections (.code c :: ps) (c :: s)
  | comment {w s : List Char} {ps : List Piece} (here : IsComment w s) (tail : Sections ps s) :
      Sections (.comment w :: ps) (w ++ s)

def charsOf (ps : List Piece) : List (Char × Bool) := ps.flatMap Piece.chars

def InComment (s : List Char) (pos : Nat) : Prop :=
  ∃ ps c, Sections ps s ∧ (charsOf ps)[pos]? = some (c, true)

theorem IsComment.opens {w after : List Char} (h : IsComment w after) : OpensComment (w ++ after) := by
  cases h with
  | @line body after => exact .inl ⟨body ++ after, rfl⟩
  | @block body after => exact .inr ⟨body ++ ['*', '/'] ++ after, rfl⟩
  | @unclosed body => exact .inr ⟨body ++ [], rfl⟩

private theorem length_le_of_first {body body' after after' : List Char}
    (first : ¬ ['*', '/'] <:+: body' ++ ['*'])
    (same : body ++ ['*', '/'] ++ after = body' ++ ['*', '/'] ++ after') :
    body'.length ≤ body.length := by
  by_contra short
  have start : body' ++ ['*'] <+: body ++ ['*', '/'] ++ after :=
    ⟨'/' :: after', by rw [same, List.append_assoc, List.append_assoc]; rfl⟩
  have inside : body ++ ['*', '/'] <+: body' ++ ['*'] := by
    apply List.prefix_of_prefix_length_le (List.prefix_append _ after) start
    simp only [List.length_append, List.length_cons, List.length_nil]
    omega
  exact first ((List.suffix_append body _).isInfix.trans inside.isInfix)

private theorem takeWhile_line {body after : List Char} (inside : '\n' ∉ body)
    (ends : ∀ c ∈ after.head?, c = '\n') : (body ++ after).takeWhile (· ≠ '\n') = body := by
  have plain : ∀ c ∈ body, decide (c ≠ '\n') = true := by
    intro c hc
    simpa using ne_of_mem_of_not_mem hc inside
  rw [List.takeWhile_append_of_pos plain]
  cases after with
  | nil => simp
  | cons c after => simp [ends c rfl]

/-- Where a comment ends is determined by the text. -/
theorem IsComment.unique {w w' after after' : List Char} (h : IsComment w after)
    (h' : IsComment w' after') (same : w ++ after = w' ++ after') : w = w' := by
  cases h with
  | @line body after inside ends =>
    cases h' with
    | @line body' after' inside' ends' =>
      have rest : body ++ after = body' ++ after' := by simpa using same
      rw [← takeWhile_line inside ends, rest, takeWhile_line inside' ends']
    | block | unclosed => simp at same
  | @block body after first =>
    cases h' with
    | line => simp at same
    | @block body' after' first' =>
      have rest : body ++ ['*', '/'] ++ after = body' ++ ['*', '/'] ++ after' := by
        simpa using same
      have lengths : body.length = body'.length :=
        Nat.le_antisymm (length_le_of_first first rest.symm) (length_le_of_first first' rest)
      rw [List.append_assoc, List.append_assoc] at rest
      rw [(List.append_inj rest lengths).1]
    | @unclosed body' none =>
      have rest : body ++ ['*', '/'] ++ after = body' := by simpa using same
      exact absurd ⟨body, after, rest⟩ none
  | @unclosed body none =>
    cases h' with
    | line => simp at same
    | @block body' after' first' =>
      have rest : body = body' ++ ['*', '/'] ++ after' := by simpa using same
      exact absurd ⟨body', after', rest.symm⟩ none
    | unclosed => simpa using same

/-- A text is cut into pieces in one way only. -/
theorem Sections.unique {ps qs : List Piece} {s : List Char} (h : Sections ps s)
    (h' : Sections qs s) : ps = qs := by
  induction h generalizing qs with
  | nil =>
    generalize whole : ([] : List Char) = s at h'
    cases h' with
    | nil => rfl
    | code => contradiction
    | comment here =>
      have opens := here.opens
      rw [← whole] at opens
      simp [OpensComment] at opens
  | @code c s ps plain tail ih =>
    generalize whole : c :: s = t at h'
    cases h' with
    | nil => contradiction
    | code _ tail' =>
      obtain ⟨rfl, rfl⟩ := List.cons.inj whole
      rw [ih tail']
    | comment here => exact absurd (whole ▸ here.opens) plain
  | @comment w s ps here tail ih =>
    generalize whole : w ++ s = t at h'
    cases h' with
    | nil =>
      have opens := here.opens
      rw [whole] at opens
      simp [OpensComment] at opens
    | code plain => exact absurd (whole ▸ here.opens) plain
    | comment here' tail' =>
      obtain rfl := here.unique here' whole
      rw [List.append_cancel_left_eq] at whole
      subst whole
      rw [ih tail']

private theorem exists_first_close (s : List Char) : ¬ ['*', '/'] <:+: s ∨
    ∃ body after, s = body ++ ['*', '/'] ++ after ∧ ¬ ['*', '/'] <:+: body ++ ['*'] := by
  induction s with
  | nil => exact .inl (by simp)
  | cons c s ih =>
    by_cases close : ['*', '/'] <+: c :: s
    · obtain ⟨after, split⟩ := close
      exact .inr ⟨[], after, split.symm, by decide⟩
    · rcases ih with none | ⟨body, after, rfl, first⟩
      · refine .inl fun inside => ?_
        rcases List.infix_cons_iff.mp inside with start | inside
        · exact close start
        · exact none inside
      · refine .inr ⟨c :: body, after, rfl, fun inside => ?_⟩
        rcases List.infix_cons_iff.mp inside with start | inside
        · -- the closing mark would begin the text
          apply close
          have longer : c :: (body ++ ['*']) <+: c :: (body ++ ['*', '/'] ++ after) :=
            ⟨'/' :: after, by simp⟩
          exact start.trans longer
        · exact first inside

private theorem exists_comment {s : List Char} (opens : OpensComment s) :
    ∃ w after, s = w ++ after ∧ IsComment w after := by
  rcases opens with ⟨r, rfl⟩ | ⟨r, rfl⟩
  · refine ⟨'/' :: '/' :: r.takeWhile (· ≠ '\n'), r.dropWhile (· ≠ '\n'), ?_, .line ?_ ?_⟩
    · simp
    · intro newline
      simpa using List.mem_takeWhile_imp newline
    · intro c hc
      have first := List.head?_dropWhile_not (fun c : Char => decide (c ≠ '\n')) r
      rw [Option.mem_def.mp hc] at first
      simpa using first
  · rcases exists_first_close r with none | ⟨body, after, rfl, first⟩
    · exact ⟨_, [], by simp, .unclosed none⟩
    · exact ⟨'/' :: '*' :: (body ++ ['*', '/']), after, by simp, .block after first⟩

/-- Every text is cut into pieces. -/
theorem exists_sections (s : List Char) : ∃ ps, Sections ps s := by
  match s with
  | [] => exact ⟨[], .nil⟩
  | c :: s =>
    by_cases opens : OpensComment (c :: s)
    · obtain ⟨w, after, split, here⟩ := exists_comment opens
      have full : w ≠ [] := by cases here <;> simp
      have shorter : after.length < (c :: s).length := by
        have := List.length_pos_iff.mpr full
        rw [split, List.length_append]
        omega
      obtain ⟨ps, tail⟩ := exists_sections after
      exact ⟨.comment w :: ps, split ▸ .comment here tail⟩
    · obtain ⟨ps, tail⟩ := exists_sections s
      exact ⟨.code c :: ps, .code opens tail⟩
termination_by s.length
decreasing_by
  · exact shorter
  · exact Nat.lt_succ_self s.length

theorem map_fst_charsOf {ps : List Piece} {s : List Char} (h : Sections ps s) :
    (charsOf ps).map Prod.fst = s := by
  induction h with
  | nil => rfl
  | code plain tail ih => rw [charsOf, List.flatMap_cons, List.map_append, ← charsOf, ih]; rfl
  | comment here tail ih =>
    rw [charsOf, List.flatMap_cons, List.map_append, ← charsOf, ih, Piece.chars, List.map_map]
    simp [Function.comp_def]

/-- In a text that is cut into pieces, a character belongs to a comment just if it does in its piece. -/
theorem inComment_iff {ps : List Piece} {s : List Char} (h : Sections ps s) {pos : Nat} {c : Char}
    {commented : Bool} (here : (charsOf ps)[pos]? = some (c, commented)) :
    InComment s pos ↔ commented := by
  constructor
  · rintro ⟨qs, d, cut, there⟩
    rw [cut.unique h, here] at there
    exact (Prod.mk.inj (Option.some.inj there)).2
  · rintro rfl
    exact ⟨ps, c, h, here⟩

end HeaderWrap.Header
