import HeaderWrap.Function
import HeaderWrap.Proofs.Header.Words

/-! Clearing the comments of a header: the tokens stay, and so does every declaration that is
found, up to the comments in the slices it was taken from. -/
namespace HeaderWrap.Header
open Text

/-- Writes one space for each comment, followed by the newlines in it. -/
def clear : Mode → List Char → List Char
  | _, [] => []
  | .code, '/' :: '/' :: s => ' ' :: clear .lineComment s
  | .code, '/' :: '*' :: s => ' ' :: clear .blockComment s
  | .code, c :: s => c :: clear .code s
  | .lineComment, c :: s =>
    if c = '\n' then '\n' :: clear .code s else clear .lineComment s
  | .blockComment, '*' :: '/' :: s => clear .code s
  | .blockComment, c :: s =>
    if c = '\n' then '\n' :: clear .blockComment s else clear .blockComment s

def withoutComments (text : String) : String := String.ofList (clear .code text.toList)

def hasComment : List Char → Bool
  | [] => false
  | '/' :: '/' :: _ => true
  | '/' :: '*' :: _ => true
  | _ :: s => hasComment s

@[simp] theorem clear_nil (m : Mode) : clear m [] = [] := by cases m <;> rfl

/-- Code is copied up to the next opening of a comment. -/
theorem clear_code_cons {c : Char} {s : List Char} (line : ∀ r, c = '/' → s = '/' :: r → False)
    (block : ∀ r, c = '/' → s = '*' :: r → False) : clear .code (c :: s) = c :: clear .code s := by
  rw [clear]
  · exact line
  · exact block

theorem clear_code_cons_of_ne {c : Char} (s : List Char) (h : c ≠ '/') :
    clear .code (c :: s) = c :: clear .code s :=
  clear_code_cons (fun _ hc => absurd hc h) (fun _ hc => absurd hc h)

/-- Inside a block comment nothing is copied up to the next newline or the end of the comment. -/
theorem clear_block_cons {c : Char} {s : List Char} (newline : c ≠ '\n')
    (close : ∀ r, c = '*' → s = '/' :: r → False) :
    clear .blockComment (c :: s) = clear .blockComment s := by
  rw [clear, if_neg newline]
  exact close

theorem slash_not_blank {c : Char} (h : isBlank c) : c ≠ '/' := by
  rintro rfl
  exact absurd h (by decide)

/-- A character that opens no comment opens none once what follows is cleared. -/
theorem clear_opens_nothing {c d : Char} {s r : List Char} (hd : d = '/' ∨ d = '*')
    (line : ∀ r, c = '/' → s = '/' :: r → False) (block : ∀ r, c = '/' → s = '*' :: r → False)
    (hc : c = '/') (h : clear .code s = d :: r) : False := by
  cases s with
  | nil => simp at h
  | cons x s =>
    have hx : x ≠ '/' := fun hx => line s hc (by rw [hx])
    rw [clear_code_cons_of_ne s hx] at h
    have hxd : x = d := (List.cons.inj h).1
    rcases hd with rfl | rfl
    · exact hx hxd
    · exact block s hc (by rw [hxd])

theorem Token.skip_nil (ts : List Token) : Token.skip [] ts = ts := by
  cases ts <;> rfl

private theorem slash_ne_of_kindOf {c : Char} (h : Token.kindOf c ≠ .other) : c ≠ '/' := by
  rintro rfl
  exact h rfl

/-- Two tokens that differ in the comments before them only: those before the second are cleared.
The first is read from one mode into another. -/
structure Twin (m : Mode) (t t' : Token) (n : Mode) : Prop where
  bare : t'.bare = t.bare
  text : t.text ≠ []
  source : t.kind ≠ .other → ∀ s, clear m (t.source ++ s) = t'.source ++ clear n s
  /-- Only a newline may stand in a comment. -/
  code : t.kind ≠ .newline → n = .code
  gap : t.kind ≠ .newline → ∀ s, clear m (t.skipped ++ s) = t'.skipped ++ clear .code s
  joined : t.kind ≠ .newline → m = .code → (t.skipped = [] ↔ t'.skipped = [])

inductive Cleared : Mode → List Token → List Token → Mode → Prop
  | nil (m : Mode) : Cleared m [] [] m
  | cons {m n e : Mode} {t t' : Token} {ts ts' : List Token} (head : Twin m t t' n)
      (tail : Cleared n ts ts' e) : Cleared m (t :: ts) (t' :: ts') e

namespace Twin

theorem kind_eq {m n : Mode} {t t' : Token} (h : Twin m t t' n) : t'.kind = t.kind := by
  have hb : t'.bare.kind = t.bare.kind := by rw [h.bare]
  exact hb

theorem text_eq {m n : Mode} {t t' : Token} (h : Twin m t t' n) : t'.text = t.text := by
  have hb : t'.bare.text = t.bare.text := by rw [h.bare]
  exact hb

/-- A comment does not begin in the text of a token. -/
theorem text_kept {m n : Mode} {t t' : Token} (h : Twin m t t' n) (plain : t.kind ≠ .newline)
    (known : t.kind ≠ .other) (s : List Char) :
    clear .code (t.text ++ s) = t.text ++ clear .code s := by
  have hs := h.source known s
  rw [h.code plain, Token.source, Token.source, List.append_assoc, List.append_assoc,
    h.gap plain, h.text_eq] at hs
  exact List.append_cancel_left hs

theorem newline {m n : Mode} (h : ∀ s, clear m ('\n' :: s) = '\n' :: clear n s) :
    Twin m ⟨[], .newline, ['\n']⟩ ⟨[], .newline, ['\n']⟩ n where
  bare := rfl
  text := by simp
  source _ := h
  code := fun hk => absurd rfl hk
  gap := fun hk => absurd rfl hk
  joined := fun hk => absurd rfl hk

/-- A token of code has itself for a twin, if it holds no slash. -/
theorem self {kind : TokenKind} {text : List Char} (ht : text ≠ [])
    (kept : kind ≠ .other → ∀ s, clear .code (text ++ s) = text ++ clear .code s) :
    Twin .code ⟨[], kind, text⟩ ⟨[], kind, text⟩ .code where
  bare := rfl
  text := ht
  source := kept
  code _ := rfl
  gap _ _ := rfl
  joined _ _ := Iff.rfl

end Twin

namespace Cleared

/-- Skipped text may be put in front of both lists, as it is and cleared. -/
theorem skip {m n e : Mode} {a b : List Char} {ts ts' : List Token} (h : Cleared n ts ts' e)
    (gap : ∀ s, clear m (a ++ s) = b ++ clear n s) (full : m = .code → a ≠ [] ∧ b ≠ []) :
    ∃ e', Cleared m (Token.skip a ts) (Token.skip b ts') e' := by
  cases h with
  | nil => exact ⟨m, .nil m⟩
  | cons head tail =>
    refine ⟨e, .cons ⟨head.bare, head.text, fun hk s => ?_, head.code, fun hk s => ?_,
      fun _ hm => ?_⟩ tail⟩
    · simpa [Token.source, gap] using head.source hk s
    · rw [List.append_assoc, gap, head.gap hk, List.append_assoc]
    · simp [full hm]

/-- A word character may be put in front of code. -/
theorem consWord {e : Mode} {c : Char} {ts ts' : List Token} (hc : isWordChar c)
    (h : Cleared .code ts ts' e) :
    Cleared .code (Token.consWord c ts) (Token.consWord c ts') e := by
  have kept (s : List Char) : clear .code (c :: s) = c :: clear .code s :=
    clear_code_cons_of_ne s (slash_not_wordChar hc)
  have alone {us us' : List Token} (hu : Cleared .code us us' e) :
      Cleared .code (⟨[], .word, [c]⟩ :: us) (⟨[], .word, [c]⟩ :: us') e :=
    .cons (.self (by simp) fun _ => kept) hu
  cases h with
  | nil => exact alone (.nil .code)
  | @cons _ n _ t t' ts ts' head tail =>
    by_cases hj : t.kind = .word ∧ t.skipped = []
    · have plain : t.kind ≠ .newline := by simp [hj.1]
      have hj' : t'.kind = .word ∧ t'.skipped = [] :=
        ⟨head.kind_eq.trans hj.1, (head.joined plain rfl).mp hj.2⟩
      simp only [Token.consWord, if_pos hj, if_pos hj']
      refine .cons ⟨?_, by simp, fun hk s => ?_, head.code, head.gap, head.joined⟩ tail
      · simp [Token.bare, head.text_eq, head.kind_eq]
      · simpa [Token.source, hj.2, hj'.2, kept] using head.source hk s
    · have hj' : ¬ (t'.kind = .word ∧ t'.skipped = []) := by
        rintro ⟨hk, hs⟩
        have word : t.kind = .word := head.kind_eq.symm.trans hk
        exact hj ⟨word, (head.joined (by simp [word]) rfl).mpr hs⟩
      simp only [Token.consWord, if_neg hj, if_neg hj']
      exact alone (.cons head tail)

/-- A character of a block comment may be put in front, unless it ends the comment. -/
theorem inside {e : Mode} {c : Char} {ts ts' : List Token} (h : Cleared .blockComment ts ts' e)
    (newline : c ≠ '\n')
    (close : ∀ u, c = '*' → ts.flatMap Token.source = '/' :: u → False) :
    ∃ e', Cleared .blockComment (Token.skip [c] ts) ts' e' := by
  cases h with
  | nil => exact ⟨.blockComment, .nil _⟩
  | @cons _ n _ t t' ts ts' head tail =>
    have dropped {a : List Char} (ha : a ≠ []) (s : List Char)
        (hs : ∃ r, t.source = a ++ r) :
        clear .blockComment (c :: (a ++ s)) = clear .blockComment (a ++ s) := by
      apply clear_block_cons newline
      intro r hc hr
      obtain ⟨x, a, rfl⟩ := List.exists_cons_of_ne_nil ha
      obtain ⟨r', hs⟩ := hs
      have hx : x = '/' := (List.cons.inj hr).1
      exact close _ hc (by rw [List.flatMap_cons, hs, hx]; rfl)
    refine ⟨e, .cons ⟨head.bare, head.text, fun hk s => ?_, head.code, fun hk s => ?_,
      by simp⟩ tail⟩
    · have full : t.source ≠ [] := by simp [Token.source, head.text]
      exact (dropped full s ⟨[], by simp⟩).trans (head.source hk s)
    · -- The comment has to end before the next token that is no newline.
      have full : t.skipped ≠ [] := by
        intro hs
        have ha := head.gap hk ['a']
        rw [hs, List.nil_append, clear_block_cons (by decide) (by simp)] at ha
        simp [clear] at ha
      exact (dropped full s ⟨t.text, rfl⟩).trans (head.gap hk s)

end Cleared

/-- Clearing the comments of a text clears those between its tokens and changes nothing else. -/
theorem cleared_tokens (m : Mode) (s : List Char) :
    ∃ e, Cleared m (tokens m s) (tokens .code (clear m s)) e := by
  fun_induction tokens m s with
  | case1 m => exact ⟨m, by simpa [tokens] using Cleared.nil m⟩
  | case2 s ih =>
    obtain ⟨e, h⟩ := ih
    exact h.skip (b := [' ']) (fun _ => rfl) (by simp)
  | case3 s ih =>
    obtain ⟨e, h⟩ := ih
    exact h.skip (b := [' ']) (fun _ => rfl) (by simp)
  | case4 s line block ih =>
    obtain ⟨e, h⟩ := ih
    rw [clear_code_cons line block, tokens_code_cons_of_ne _ (by decide), if_pos rfl]
    exact ⟨e, .cons (.newline fun s => clear_code_cons_of_ne s (by decide)) h⟩
  | case5 c s line block hn hb ih =>
    obtain ⟨e, h⟩ := ih
    rw [clear_code_cons line block, tokens_code_cons_of_ne _ (slash_not_blank hb), if_neg hn,
      if_pos hb]
    exact h.skip (fun _ => clear_code_cons_of_ne _ (slash_not_blank hb)) (by simp)
  | case6 c s line block hn hb hw ih =>
    obtain ⟨e, h⟩ := ih
    rw [clear_code_cons line block, tokens_code_cons_of_ne _ (slash_not_wordChar hw), if_neg hn,
      if_neg hb, if_pos hw]
    exact ⟨e, h.consWord hw⟩
  | case7 c s line block hn hb hw ih =>
    obtain ⟨e, h⟩ := ih
    rw [clear_code_cons line block,
      tokens_code_cons (fun _ => clear_opens_nothing (.inl rfl) line block)
        (fun _ => clear_opens_nothing (.inr rfl) line block), if_neg hn, if_neg hb, if_neg hw]
    exact ⟨e, .cons (.self (by simp) fun hk t => clear_code_cons_of_ne t (slash_ne_of_kindOf hk)) h⟩
  | case8 s ih =>
    obtain ⟨e, h⟩ := ih
    exact ⟨e, .cons (.newline fun _ => rfl) h⟩
  | case9 c s hn ih =>
    obtain ⟨e, h⟩ := ih
    rw [clear, if_neg hn, ← Token.skip_nil (tokens .code (clear .lineComment s))]
    exact h.skip (fun t => by rw [List.singleton_append, clear, if_neg hn]; rfl) (by simp)
  | case10 s ih =>
    obtain ⟨e, h⟩ := ih
    rw [clear, ← Token.skip_nil (tokens .code (clear .code s))]
    exact h.skip (fun _ => rfl) (by simp)
  | case11 s close ih =>
    obtain ⟨e, h⟩ := ih
    exact ⟨e, .cons (.newline fun _ => rfl) h⟩
  | case12 c s close hn ih =>
    obtain ⟨e, h⟩ := ih
    rw [clear_block_cons hn close]
    refine h.inside hn fun u hc hu => ?_
    obtain ⟨r, hr⟩ := tokens_spell .blockComment s
    exact close (u ++ r) hc (by rw [hr, hu, List.cons_append])

end HeaderWrap.Header
