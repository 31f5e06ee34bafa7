import HeaderWrap.Proofs.Header.Clearing

/-! Texts one behind the other: at a character that neither goes on with a word nor opens or closes
a comment, the tokens of the second follow those of the first. -/
namespace HeaderWrap.Header
open Text

def endMode : Mode → List Char → Mode
  | m, [] => m
  | .code, '/' :: '/' :: s => endMode .lineComment s
  | .code, '/' :: '*' :: s => endMode .blockComment s
  | .code, _ :: s => endMode .code s
  | .lineComment, c :: s => endMode (if c = '\n' then .code else .lineComment) s
  | .blockComment, '*' :: '/' :: s => endMode .code s
  | .blockComment, _ :: s => endMode .blockComment s

structure IsBreak (c : Char) : Prop where
  word : isWordChar c = false
  slash : c ≠ '/'
  star : c ≠ '*'

private theorem endMode_code_cons {c : Char} {s : List Char} (line : ∀ r, c = '/' → s = '/' :: r → False)
    (block : ∀ r, c = '/' → s = '*' :: r → False) : endMode .code (c :: s) = endMode .code s := by
  rw [endMode]
  · exact line
  · exact block

/-- Without a slash no comment opens. -/
theorem endMode_code {s : List Char} (plain : '/' ∉ s) : endMode .code s = .code := by
  induction s with
  | nil => rfl
  | cons c s ih =>
    rw [List.mem_cons, not_or] at plain
    rw [endMode_code_cons (fun _ hc => absurd hc.symm plain.1) (fun _ hc => absurd hc.symm plain.1)]
    exact ih plain.2

private theorem opens_break {a b c : Char} {s : List Char} (h : ∀ r, c = a → s = b :: r → False) {d : Char}
    (hd : d ≠ b) (t : List Char) : ∀ r, c = a → s ++ d :: t = b :: r → False := by
  intro r hc hs
  cases s with
  | nil => exact hd (List.cons.inj hs).1
  | cons x s => exact h s hc (by rw [(List.cons.inj hs).1])

private theorem Token.skip_append (a b : List Char) (ts : List Token) :
    Token.skip (a ++ b) ts = Token.skip a (Token.skip b ts) := by
  cases ts with
  | nil => rfl
  | cons t ts => simp [Token.skip]

private theorem head_tokens_break {c : Char} (hc : IsBreak c) (s : List Char) :
    ∀ t ∈ (tokens .code (c :: s)).head?, t.kind = .word → t.skipped ≠ [] := by
  intro t ht word
  rw [tokens_code_cons_of_ne s hc.slash] at ht
  split at ht
  · obtain rfl : _ = t := Option.some.inj ht
    contradiction
  · split at ht
    · cases hs : tokens .code s with
      | nil => simp [hs, Token.skip] at ht
      | cons u us =>
        rw [hs] at ht
        obtain rfl : _ = t := Option.some.inj ht
        simp
    · rw [hc.word, if_neg (by decide)] at ht
      obtain rfl : _ = t := Option.some.inj ht
      exact absurd word (kindOf_ne_word c)

/-- Tokens `ts` that spell a text up to a gap, and what they are with the tokens `us` behind that
gap. -/
def Behind (s : List Char) (ts us all : List Token) : Prop :=
  ∃ gap, s = ts.flatMap Token.source ++ gap ∧ all = ts ++ Token.skip gap us

namespace Behind
variable {s : List Char} {ts us all : List Token}

/-- Text skipped in front goes to the first token, or into the gap if there is none. -/
theorem skip (a : List Char) (h : Behind s ts us all) :
    Behind (a ++ s) (Token.skip a ts) us (Token.skip a all) := by
  obtain ⟨gap, rfl, rfl⟩ := h
  cases ts with
  | nil => exact ⟨a ++ gap, rfl, (Token.skip_append a gap us).symm⟩
  | cons t ts => exact ⟨gap, by simp [Token.skip, Token.source], rfl⟩

theorem put (c : Char) (kind : TokenKind) (h : Behind s ts us all) :
    Behind (c :: s) (⟨[], kind, [c]⟩ :: ts) us (⟨[], kind, [c]⟩ :: all) := by
  obtain ⟨gap, rfl, rfl⟩ := h
  exact ⟨gap, by simp [Token.source], rfl⟩

/-- A word that is put in front does not reach beyond the tokens that spell the text. -/
theorem consWord (c : Char) (h : Behind s ts us all)
    (apart : s = [] → ∀ u ∈ us.head?, u.kind = .word → u.skipped ≠ []) :
    Behind (c :: s) (Token.consWord c ts) us (Token.consWord c all) := by
  obtain ⟨gap, hs, rfl⟩ := h
  cases ts with
  | nil =>
    refine ⟨gap, by rw [hs]; rfl, consWord_eq_cons ?_⟩
    cases gap with
    | nil =>
      rw [Token.skip_nil]
      exact apart hs
    | cons x gap =>
      intro t ht _
      cases us with
      | nil => simp [Token.skip] at ht
      | cons u us =>
        obtain rfl : _ = t := Option.some.inj ht
        simp
  | cons t ts =>
    simp only [Token.consWord, List.cons_append]
    split
    · rename_i joined
      exact ⟨gap, by simp [hs, Token.source, joined.2], rfl⟩
    · exact ⟨gap, by simp [hs, Token.source], rfl⟩

end Behind

/-- At a break the tokens go on as they begin there. -/
theorem tokens_append_break (m : Mode) (s : List Char) {d : Char} (hd : IsBreak d)
    (r : List Char) :
    Behind s (tokens m s) (tokens (endMode m s) (d :: r)) (tokens m (s ++ d :: r)) := by
  fun_induction tokens m s with
  | case1 m => exact ⟨[], rfl, (Token.skip_nil _).symm⟩
  | case2 s ih => exact ih.skip ['/', '/']
  | case3 s ih => exact ih.skip ['/', '*']
  | case4 s line block ih =>
    rw [endMode_code_cons line block, List.cons_append, tokens_code_cons_of_ne _ (by decide),
      if_pos rfl]
    exact ih.put '\n' .newline
  | case5 c s line block hn hb ih =>
    rw [endMode_code_cons line block, List.cons_append,
      tokens_code_cons_of_ne _ (slash_not_blank hb), if_neg hn, if_pos hb]
    exact ih.skip [c]
  | case6 c s line block hn hb hw ih =>
    rw [endMode_code_cons line block, List.cons_append,
      tokens_code_cons_of_ne _ (slash_not_wordChar hw), if_neg hn, if_neg hb, if_pos hw]
    refine ih.consWord c fun empty => ?_
    rw [empty]
    exact head_tokens_break hd r
  | case7 c s line block hn hb hw ih =>
    rw [endMode_code_cons line block, List.cons_append,
      tokens_code_cons (opens_break line hd.slash r) (opens_break block hd.star r), if_neg hn,
      if_neg hb, if_neg hw]
    exact ih.put c _
  | case8 s ih => exact ih.put '\n' .newline
  | case9 c s hn ih =>
    rw [endMode, if_neg hn, List.cons_append, tokens, if_neg hn]
    exact ih.skip [c]
  | case10 s ih => exact ih.skip ['*', '/']
  | case11 s close ih => exact ih.put '\n' .newline
  | case12 c s close hn ih =>
    rw [endMode, List.cons_append, tokens, if_neg hn]
    · exact ih.skip [c]
    · exact opens_break close hd.slash r
    · exact close

end HeaderWrap.Header
