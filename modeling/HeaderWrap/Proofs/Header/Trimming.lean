import Mathlib.Data.List.TakeWhile
import HeaderWrap.Proofs.Header.Recognition

/-! Trimming a fragment: the blanks around it hold neither tokens nor comments. -/
namespace HeaderWrap.Header
open Text

/-- Trimming takes blanks from both ends and nothing else. -/
theorem trim_spec (s : List Char) :
    ∃ a b, s = a ++ trim s ++ b ∧ (∀ c ∈ a, isBlank c) ∧ ∀ c ∈ b, isBlank c := by
  refine ⟨s.takeWhile isBlank, ((s.dropWhile isBlank).reverse.takeWhile isBlank).reverse, ?_,
    fun c hc => List.all_eq_true.mp List.all_takeWhile c hc,
    fun c hc => List.all_eq_true.mp List.all_takeWhile c (List.mem_reverse.mp hc)⟩
  rw [trim, List.append_assoc, ← List.reverse_append, List.takeWhile_append_dropWhile,
    List.reverse_reverse, List.takeWhile_append_dropWhile]

theorem trim_eq_nil_iff {s : List Char} : trim s = [] ↔ ∀ c ∈ s, isBlank c := by
  constructor
  · intro h c hc
    obtain ⟨a, b, hs, ha, hb⟩ := trim_spec s
    rw [h, List.append_nil] at hs
    rw [hs] at hc
    exact (List.mem_append.mp hc).elim (ha c) (hb c)
  · intro h
    have hd : s.dropWhile isBlank = [] := List.dropWhile_eq_nil_iff.mpr h
    rw [trim, hd]
    rfl

private theorem hasComment_cons_of_ne {c : Char} (s : List Char) (h : c ≠ '/') :
    hasComment (c :: s) = hasComment s := by
  rw [hasComment]
  · exact fun _ hc => absurd hc h
  · exact fun _ hc => absurd hc h

theorem hasComment_cons {s : List Char} (c : Char) (h : hasComment s) : hasComment (c :: s) := by
  rw [hasComment.eq_def]
  split
  · exact absurd ‹_› (by simp)
  · rfl
  · rfl
  · rename_i hs
    exact (List.cons.inj hs).2 ▸ h

/-- No comment opens in a cleared text. -/
theorem hasComment_clear (m : Mode) (s : List Char) : hasComment (clear m s) = false := by
  fun_induction clear m s with
  | case1 => rfl
  | case2 s ih => exact (hasComment_cons_of_ne _ (by decide)).trans ih
  | case3 s ih => exact (hasComment_cons_of_ne _ (by decide)).trans ih
  | case4 c s line block ih =>
    rw [hasComment]
    · exact ih
    · exact fun _ => clear_opens_nothing (.inl rfl) line block
    · exact fun _ => clear_opens_nothing (.inr rfl) line block
  | case5 s ih => exact (hasComment_cons_of_ne _ (by decide)).trans ih
  | case6 c s hn ih => exact ih
  | case7 s ih => exact ih
  | case8 s close ih => exact (hasComment_cons_of_ne _ (by decide)).trans ih
  | case9 c s close hn ih => exact ih

/-- Clearing changes nothing where there is no comment. -/
theorem clear_eq_self {s : List Char} (h : hasComment s = false) : clear .code s = s := by
  fun_induction hasComment s with
  | case1 => rfl
  | case2 => contradiction
  | case3 => contradiction
  | case4 c s line block ih => rw [clear_code_cons line block, ih h]

private theorem opens_append {a b : Char} {c : Char} {s t : List Char}
    (h : ∀ r, c = a → s = b :: r → False) (ht : b ∉ t) :
    ∀ r, c = a → s ++ t = b :: r → False := by
  intro r hc hs
  cases s with
  | nil =>
    rw [List.nil_append] at hs
    exact ht (hs ▸ List.mem_cons_self)
  | cons x s => exact h s hc (by rw [(List.cons.inj hs).1])

private theorem hasComment_append (s : List Char) {t : List Char} (slash : '/' ∉ t) (star : '*' ∉ t) :
    hasComment (s ++ t) = hasComment s := by
  fun_induction hasComment s with
  | case1 =>
    induction t with
    | nil => rfl
    | cons c t ih =>
      have hc : c ≠ '/' := fun hc => slash (hc ▸ List.mem_cons_self)
      rw [List.nil_append, hasComment_cons_of_ne t hc]
      exact ih (fun h => slash (List.mem_cons_of_mem _ h))
        (fun h => star (List.mem_cons_of_mem _ h))
  | case2 => rfl
  | case3 => rfl
  | case4 c s line block ih =>
    rw [List.cons_append, hasComment, ih]
    · exact opens_append line slash
    · exact opens_append block star

private theorem not_mem_blanks {c : Char} {s : List Char} (hc : isBlank c = false)
    (hs : ∀ x ∈ s, isBlank x) : c ∉ s := by
  intro h
  rw [hs c h] at hc
  contradiction

private theorem hasComment_blanks_append {a : List Char} (s : List Char) (ha : ∀ c ∈ a, isBlank c) :
    hasComment (a ++ s) = hasComment s := by
  induction a with
  | nil => rfl
  | cons c a ih =>
    rw [List.cons_append, hasComment_cons_of_ne _ (slash_not_blank (ha c List.mem_cons_self))]
    exact ih fun x hx => ha x (List.mem_cons_of_mem _ hx)

/-- A comment is never trimmed away. -/
theorem hasComment_trim (s : List Char) : hasComment (trim s) = hasComment s := by
  obtain ⟨a, b, hs, ha, hb⟩ := trim_spec s
  have hb' := hasComment_append (a ++ trim s) (not_mem_blanks (by decide) hb)
    (not_mem_blanks (by decide) hb)
  rw [← hs, hasComment_blanks_append _ ha] at hb'
  exact hb'.symm

/-- A token that can stand between the parts of a parameter list: a newline, or a comma of the
given text. -/
def IsGap (b : List Char) (t : Token) : Prop :=
  t.kind = .newline ∨ t.kind = .comma ∧ ',' ∈ b

private theorem isGap_skip {a b : List Char} {ts : List Token} (h : ∀ t ∈ ts, IsGap b t) :
    ∀ t ∈ Token.skip a ts, IsGap b t := by
  intro t ht
  obtain ⟨u, hu, hk⟩ := kind_of_mem_skip ht
  have gap := h u hu
  rw [IsGap, hk] at gap
  exact gap

def kindAt (c : Char) : TokenKind := if isWordChar c then .word else Token.kindOf c

/-- Every token but a newline has the kind of a character of the text. -/
theorem kind_of_mem_tokens (m : Mode) (s : List Char) :
    ∀ t ∈ tokens m s, t.kind = .newline ∨ ∃ c ∈ s, isBlank c = false ∧ t.kind = kindAt c := by
  intro t ht
  obtain ⟨_, _, stands, inside⟩ := (cut_tokens m s).stands ht
  by_cases word : t.kind = .word
  · obtain ⟨full, chars⟩ := isWord_iff.mp (stands.word word).word
    obtain ⟨c, hc⟩ := List.exists_mem_of_ne_nil _ full
    have own : kindAt c = .word := if_pos (chars c hc)
    exact .inr ⟨c, inside c hc, isBlank_of_isWordChar (chars c hc), word.trans own.symm⟩
  · obtain ⟨c, text, sign⟩ := stands.sign word
    have own : kindAt c = t.kind := (if_neg (by simp [sign.word])).trans sign.own
    exact sign.blank.imp_right fun plain => ⟨c, inside c (by simp [text]), plain, own.symm⟩

/-- Blanks and commas hold no tokens but newlines and those commas. -/
theorem tokens_gap (m : Mode) {b : List Char} (hb : ∀ c ∈ b, c = ',' ∨ isBlank c) :
    ∀ t ∈ tokens m b, IsGap b t := by
  intro t ht
  refine (kind_of_mem_tokens m b t ht).imp_right fun ⟨c, hc, plain, hk⟩ => ?_
  have comma : c = ',' := (hb c hc).resolve_right (by simp [plain])
  exact ⟨hk.trans (comma ▸ rfl), comma ▸ hc⟩

/-- A comma token stands for a comma of the text. -/
theorem comma_mem_of_token {m : Mode} {s : List Char} {t : Token} (ht : t ∈ tokens m s)
    (hk : t.kind = .comma) : ',' ∈ s := by
  rcases kind_of_mem_tokens m s t ht with newline | ⟨c, hc, -, own⟩
  · rw [hk] at newline
    contradiction
  · have comma : c = ',' := by
      have own : kindAt c = .comma := own.symm.trans hk
      unfold kindAt at own
      split at own
      · contradiction
      · exact eq_of_kindOf (by decide) own
    exact comma ▸ hc

/-- Blanks and commas behind a text add no tokens but newlines and those commas. -/
theorem tokens_append (m : Mode) (s : List Char) {b : List Char}
    (hb : ∀ c ∈ b, c = ',' ∨ isBlank c) :
    ∃ extra, tokens m (s ++ b) = tokens m s ++ extra ∧ ∀ t ∈ extra, IsGap b t := by
  have slash : '/' ∉ b := fun h => absurd (hb '/' h) (by decide)
  have star : '*' ∉ b := fun h => absurd (hb '*' h) (by decide)
  have skip (a : List Char) {us ts : List Token}
      (h : ∃ extra, us = ts ++ extra ∧ ∀ t ∈ extra, IsGap b t) :
      ∃ extra, Token.skip a us = Token.skip a ts ++ extra ∧ ∀ t ∈ extra, IsGap b t := by
    obtain ⟨extra, rfl, gap⟩ := h
    cases ts with
    | nil => exact ⟨Token.skip a extra, rfl, isGap_skip gap⟩
    | cons t ts => exact ⟨extra, rfl, gap⟩
  have put (t : Token) {us ts : List Token}
      (h : ∃ extra, us = ts ++ extra ∧ ∀ t ∈ extra, IsGap b t) :
      ∃ extra, t :: us = (t :: ts) ++ extra ∧ ∀ t ∈ extra, IsGap b t := by
    obtain ⟨extra, rfl, gap⟩ := h
    exact ⟨extra, rfl, gap⟩
  fun_induction tokens m s with
  | case1 m => exact ⟨tokens m b, rfl, tokens_gap m hb⟩
  | case2 s ih => exact skip ['/', '/'] ih
  | case3 s ih => exact skip ['/', '*'] ih
  | case4 s line block ih =>
    rw [List.cons_append, tokens_code_cons_of_ne _ (by decide), if_pos rfl]
    exact put _ ih
  | case5 c s line block hn hc ih =>
    rw [List.cons_append, tokens_code_cons (opens_append line slash) (opens_append block star),
      if_neg hn, if_pos hc]
    exact skip [c] ih
  | case6 c s line block hn hc hw ih =>
    rw [List.cons_append, tokens_code_cons (opens_append line slash) (opens_append block star),
      if_neg hn, if_neg hc, if_pos hw]
    obtain ⟨extra, hs, gap⟩ := ih
    refine ⟨extra, ?_, gap⟩
    rw [hs]
    refine consWord_append ?_ _
    intro t ht word
    rcases gap t (List.mem_of_mem_head? ht) with hk | ⟨hk, -⟩
    · simp [hk] at word
    · simp [hk] at word
  | case7 c s line block hn hc hw ih =>
    rw [List.cons_append, tokens_code_cons (opens_append line slash) (opens_append block star),
      if_neg hn, if_neg hc, if_neg hw]
    exact put _ ih
  | case8 s ih => exact put _ ih
  | case9 c s hn ih =>
    rw [List.cons_append, tokens, if_neg hn]
    exact skip [c] ih
  | case10 s ih => exact skip ['*', '/'] ih
  | case11 s close ih => exact put _ ih
  | case12 c s close hn ih =>
    rw [List.cons_append, tokens, if_neg hn]
    · exact skip [c] ih
    · exact opens_append close slash

/-- Blanks and commas behind a fragment change nothing, if its commas stand in comments. -/
theorem lexemes_append (s : List Char) {b : List Char} (hb : ∀ c ∈ b, c = ',' ∨ isBlank c)
    (hidden : ',' ∈ b → ∀ t ∈ lexemes (s ++ b), t.kind ≠ .comma) :
    lexemes (s ++ b) = lexemes s := by
  obtain ⟨extra, hs, gap⟩ := tokens_append .code s hb
  have newlines : extra.filter (·.kind ≠ .newline) = [] := by
    refine List.filter_eq_nil_iff.mpr fun t ht hk => ?_
    obtain ⟨comma, hb⟩ := (gap t ht).resolve_left (of_decide_eq_true hk)
    refine hidden hb t.bare (List.mem_map.mpr ⟨t, ?_, rfl⟩) comma
    rw [hs]
    exact List.mem_filter.mpr ⟨List.mem_append_right _ ht, hk⟩
  rw [lexemes, hs, List.filter_append, newlines, List.append_nil, lexemes]

/-- What is skipped leaves the tokens of a fragment as they are. -/
theorem filter_skip (a : List Char) (ts : List Token) :
    ((Token.skip a ts).filter (·.kind ≠ .newline)).map Token.bare =
      (ts.filter (·.kind ≠ .newline)).map Token.bare := by
  cases ts with
  | nil => rfl
  | cons t ts =>
    simp only [Token.skip, List.filter_cons]
    split
    · rfl
    · rfl

theorem lexemes_blanks_append {a : List Char} (s : List Char) (ha : ∀ c ∈ a, isBlank c) :
    lexemes (a ++ s) = lexemes s := by
  induction a with
  | nil => rfl
  | cons c a ih =>
    have hc := ha c List.mem_cons_self
    have ih := ih fun x hx => ha x (List.mem_cons_of_mem _ hx)
    rw [List.cons_append, lexemes, tokens_code_cons_of_ne _ (slash_not_blank hc), if_pos hc]
    split
    · exact ih
    · exact (filter_skip [c] _).trans ih

/-- A fragment has the same tokens trimmed. -/
theorem lexemes_trim (s : List Char) : lexemes (trim s) = lexemes s := by
  obtain ⟨a, b, hs, ha, hb⟩ := trim_spec s
  have back := lexemes_append (a ++ trim s) (fun c hc => .inr (hb c hc)) fun comma =>
    absurd comma (not_mem_blanks (by decide) hb)
  rw [← hs, lexemes_blanks_append _ ha] at back
  exact back.symm

end HeaderWrap.Header
