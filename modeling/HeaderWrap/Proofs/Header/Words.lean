import Mathlib.Data.List.Basic
import HeaderWrap.Header.Token

/-! What tokens spell: they are cut from a text one behind the other, each a whole word, with no
word character at either side, or one character of its kind. -/
namespace HeaderWrap
open Text

namespace Text

def isWord (w : List Char) : Bool := w ≠ [] && w.all isWordChar

theorem isWord_iff {w : List Char} : isWord w ↔ w ≠ [] ∧ ∀ c ∈ w, isWordChar c := by
  simp [isWord]

/-- Word characters lie in ASCII, behind its signs and blanks. -/
theorem toNat_of_isWordChar {c : Char} (h : isWordChar c) : 0x30 ≤ c.toNat ∧ c.toNat ≤ 0x7A := by
  have within {lo hi : UInt32} (hc : lo ≤ c.val ∧ c.val ≤ hi) (hlo : 0x30 ≤ lo.toNat)
      (hhi : hi.toNat ≤ 0x7A) : 0x30 ≤ c.toNat ∧ c.toNat ≤ 0x7A :=
    ⟨Nat.le_trans hlo (UInt32.le_iff_toNat_le.mp hc.1),
      Nat.le_trans (UInt32.le_iff_toNat_le.mp hc.2) hhi⟩
  change (decide ('A'.val ≤ c.val ∧ c.val ≤ 'Z'.val) ||
    (decide ('a'.val ≤ c.val) && decide (c.val ≤ 'z'.val)) ||
    (decide ('0'.val ≤ c.val) && decide (c.val ≤ '9'.val)) || c == '_') = true at h
  simp only [Bool.or_eq_true, decide_eq_true_eq, Bool.and_eq_true, beq_iff_eq] at h
  rcases h with ((upper | lower) | digit) | rfl
  · exact within upper (by decide) (by decide)
  · exact within lower (by decide) (by decide)
  · exact within digit (by decide) (by decide)
  · decide

theorem isBlank_of_isWordChar {c : Char} (h : isWordChar c) : isBlank c = false := by
  have range := toNat_of_isWordChar h
  simp only [isBlank, Bool.or_eq_false_iff, Bool.and_eq_false_iff, decide_eq_false_iff_not,
    beq_eq_false_iff_ne]
  omega

end Text

namespace Header

theorem slash_not_wordChar {c : Char} (h : isWordChar c) : c ≠ '/' := by
  rintro rfl
  exact absurd h (by decide)

/-- A word does not go on in tokens that begin with no word, or behind something skipped. -/
theorem consWord_eq_cons {c : Char} {ts : List Token}
    (apart : ∀ t ∈ ts.head?, t.kind = .word → t.skipped ≠ []) :
    Token.consWord c ts = ⟨[], .word, [c]⟩ :: ts := by
  cases ts with
  | nil => rfl
  | cons t ts =>
    rw [Token.consWord, if_neg]
    rintro ⟨word, joined⟩
    exact apart t rfl word joined

/-- A word character joins nothing in the second of two runs of tokens that begins with no word. -/
theorem consWord_append {c : Char} {extra : List Token}
    (apart : ∀ t ∈ extra.head?, t.kind = .word → t.skipped ≠ []) (ts : List Token) :
    Token.consWord c (ts ++ extra) = Token.consWord c ts ++ extra := by
  cases ts with
  | nil => exact consWord_eq_cons apart
  | cons t ts =>
    rw [List.cons_append, Token.consWord, Token.consWord]
    split
    · rfl
    · rfl

/-- The token of a character that is no blank, opens no comment and belongs to no word. -/
theorem tokens_code_cons {c : Char} {s : List Char} (line : ∀ r, c = '/' → s = '/' :: r → False)
    (block : ∀ r, c = '/' → s = '*' :: r → False) :
    tokens .code (c :: s) =
      if c = '\n' then ⟨[], .newline, ['\n']⟩ :: tokens .code s
      else if isBlank c then Token.skip [c] (tokens .code s)
      else if isWordChar c then Token.consWord c (tokens .code s)
      else ⟨[], Token.kindOf c, [c]⟩ :: tokens .code s := by
  rw [tokens]
  · exact line
  · exact block

theorem tokens_code_cons_of_ne {c : Char} (s : List Char) (h : c ≠ '/') :
    tokens .code (c :: s) =
      if c = '\n' then ⟨[], .newline, ['\n']⟩ :: tokens .code s
      else if isBlank c then Token.skip [c] (tokens .code s)
      else if isWordChar c then Token.consWord c (tokens .code s)
      else ⟨[], Token.kindOf c, [c]⟩ :: tokens .code s :=
  tokens_code_cons (fun _ hc => absurd hc h) (fun _ hc => absurd hc h)

theorem tokens_wordChar {c : Char} (hc : isWordChar c) (s : List Char) :
    tokens .code (c :: s) = Token.consWord c (tokens .code s) := by
  have plain : isBlank c = false := isBlank_of_isWordChar hc
  have newline : c ≠ '\n' := by
    rintro rfl
    contradiction
  rw [tokens_code_cons_of_ne s (slash_not_wordChar hc), if_neg newline, plain,
    if_neg (by decide), if_pos hc]

/-- A whole word between what stands before and behind it. -/
structure IsWhole (before word after : List Char) : Prop where
  word : isWord word
  before : ∀ c ∈ before.getLast?, isWordChar c = false
  after : ∀ c ∈ after.head?, isWordChar c = false

structure IsSign (c : Char) (kind : TokenKind) : Prop where
  own : Token.kindOf c = kind
  word : isWordChar c = false
  /-- No blank is a token, newlines apart. -/
  blank : kind = .newline ∨ isBlank c = false

private theorem isSign_newline : IsSign '\n' .newline := ⟨rfl, by decide, .inl rfl⟩

theorem kindOf_ne_word (c : Char) : Token.kindOf c ≠ .word := by
  intro word
  unfold Token.kindOf at word
  split at word <;> contradiction

private theorem IsSign.ne_word {c : Char} {kind : TokenKind} (h : IsSign c kind) : kind ≠ .word :=
  h.own ▸ kindOf_ne_word c

/-- A sign is told by its kind. -/
theorem eq_of_kindOf {c d : Char} (known : Token.kindOf d ≠ .other)
    (same : Token.kindOf c = Token.kindOf d) : c = d := by
  unfold Token.kindOf at same known
  split at same
  all_goals split at same
  all_goals first | rfl | contradiction | simp_all

/-- A token between what stands before and behind it. -/
structure Stands (before : List Char) (t : Token) (after : List Char) : Prop where
  word : t.kind = .word → IsWhole before t.text after
  sign : t.kind ≠ .word → ∃ c, t.text = [c] ∧ IsSign c t.kind

theorem Stands.full {before after : List Char} {t : Token} (h : Stands before t after) :
    t.text ≠ [] := by
  by_cases word : t.kind = .word
  · exact (isWord_iff.mp (h.word word).word).1
  · obtain ⟨c, text, -⟩ := h.sign word
    simp [text]

/-- Tokens that are cut from a text one behind the other, behind what stands before it. -/
inductive Cut : List Char → List Token → List Char → Prop
  | nil (before s : List Char) : Cut before [] s
  | cons {before : List Char} {t : Token} {ts : List Token} {s : List Char}
      (head : Stands (before ++ t.skipped) t s) (tail : Cut (before ++ t.source) ts s) :
      Cut before (t :: ts) (t.source ++ s)

namespace Cut
variable {before a s : List Char} {ts : List Token}

/-- More may stand before a text, unless its first word would go on with it. -/
theorem extend (h : Cut before ts s) (a : List Char)
    (edge : ∀ t ∈ ts.head?, t.kind = .word → before ++ t.skipped = [] →
      ∀ c ∈ a.getLast?, isWordChar c = false) : Cut (a ++ before) ts s := by
  induction h with
  | nil before s => exact .nil _ _
  | @cons before t ts s head tail ih =>
    refine .cons ⟨fun kind => ?_, head.sign⟩ ?_
    · obtain ⟨word, left, right⟩ := head.word kind
      refine ⟨word, ?_, right⟩
      rw [List.append_assoc]
      by_cases first : before ++ t.skipped = []
      · rw [first, List.append_nil]
        exact edge t rfl kind first
      · rwa [List.getLast?_append_of_ne_nil _ first]
    · rw [List.append_assoc]
      exact ih fun u _ _ empty => absurd empty (by simp [Token.source, head.full])

/-- What is skipped before a text stands before it. -/
theorem skip (h : Cut [] ts s) (a : List Char)
    (edge : ∀ t ∈ ts.head?, t.kind = .word → t.skipped = [] →
      ∀ c ∈ a.getLast?, isWordChar c = false) : Cut [] (Token.skip a ts) (a ++ s) := by
  have behind := h.extend a edge
  rw [List.append_nil] at behind
  cases behind with
  | nil => exact .nil _ _
  | @cons _ t ts s head tail =>
    have source : a ++ (t.source ++ s) =
        { t with skipped := a ++ t.skipped : Token }.source ++ s := by
      simp [Token.source]
    rw [source]
    refine .cons ⟨head.word, head.sign⟩ ?_
    simpa [Token.source] using tail

/-- Where the tokens are split, so is the text. -/
theorem split {us : List Token} (h : Cut before (us ++ ts) s) :
    ∃ r, s = us.flatMap Token.source ++ r ∧ Cut (before ++ us.flatMap Token.source) ts r := by
  induction us generalizing before s with
  | nil => exact ⟨s, rfl, by simpa using h⟩
  | cons u us ih =>
    cases h with
    | cons head tail =>
      obtain ⟨r, rfl, rest⟩ := ih tail
      exact ⟨r, by simp, by simpa using rest⟩

private theorem cons_char {t : Token} {c : Char} (h : Cut [] ts s) (bare : t.skipped = [])
    (text : t.text = [c]) (stands : Stands [] t s)
    (edge : ∀ u ∈ ts.head?, u.kind = .word → u.skipped = [] → isWordChar c = false) :
    Cut [] (t :: ts) (c :: s) := by
  have source : t.source = [c] := by rw [Token.source, bare, text, List.nil_append]
  have split : c :: s = t.source ++ s := by rw [source, List.singleton_append]
  rw [split]
  refine .cons (by rwa [bare]) ?_
  rw [source]
  exact h.extend [c] fun u hu kind first d hd => Option.some.inj hd ▸ edge u hu kind first

/-- A character that belongs to no word is a token. -/
theorem sign {c : Char} {k : TokenKind} (h : Cut [] ts s) (own : IsSign c k) :
    Cut [] (⟨[], k, [c]⟩ :: ts) (c :: s) :=
  h.cons_char rfl rfl ⟨fun kind => absurd kind own.ne_word, fun _ => ⟨c, rfl, own⟩⟩
    fun _ _ _ _ => own.word

/-- Every token stands somewhere in the text. -/
theorem stands (h : Cut before ts s) {t : Token} (ht : t ∈ ts) :
    ∃ left right, Stands left t right ∧ ∀ c ∈ t.text, c ∈ s := by
  induction h with
  | nil => contradiction
  | cons head tail ih =>
    rcases List.mem_cons.mp ht with rfl | ht
    · refine ⟨_, _, head, fun c hc => List.mem_append_left _ ?_⟩
      exact List.mem_append_right _ hc
    · obtain ⟨left, right, stands, inside⟩ := ih ht
      exact ⟨left, right, stands, fun c hc => List.mem_append_right _ (inside c hc)⟩

end Cut

private theorem head_tokens_wordChar {c : Char} (hc : isWordChar c) (s : List Char) :
    ∃ t ∈ (tokens .code (c :: s)).head?, t.kind = .word ∧ t.skipped = [] := by
  rw [tokens_wordChar hc]
  cases tokens .code s with
  | nil => exact ⟨_, rfl, rfl, rfl⟩
  | cons t ts =>
    rw [Token.consWord]
    split
    · rename_i joined
      exact ⟨_, rfl, joined⟩
    · exact ⟨_, rfl, rfl, rfl⟩

private theorem head_tokens_comment {m : Mode} (comment : m ≠ .code) (s : List Char) :
    ∀ t ∈ (tokens m s).head?, t.kind = .word → t.skipped ≠ [] := by
  have skipped (c : Char) (a : List Char) (ts : List Token) :
      ∀ t ∈ (Token.skip (c :: a) ts).head?, t.kind = .word → t.skipped ≠ [] := by
    cases ts <;> simp [Token.skip]
  have newline (ts : List Token) : ∀ t ∈ (⟨[], .newline, ['\n']⟩ :: ts : List Token).head?,
      t.kind = .word → t.skipped ≠ [] := by simp
  fun_cases tokens m s with
  | case1 => simp
  | case8 s => exact newline _
  | case9 c s => exact skipped c [] _
  | case10 s => exact skipped '*' ['/'] _
  | case11 s => exact newline _
  | case12 c s => exact skipped c [] _
  | _ => contradiction

/-- A word character joins the word that begins right behind it, or is a word itself. -/
theorem Cut.word {c : Char} {s : List Char} (h : Cut [] (tokens .code s) s) (hc : isWordChar c) :
    Cut [] (Token.consWord c (tokens .code s)) (c :: s) := by
  have alone (apart : ∀ t ∈ (tokens .code s).head?, t.kind = .word → t.skipped ≠ []) :
      Cut [] (⟨[], .word, [c]⟩ :: tokens .code s) (c :: s) := by
    refine h.cons_char rfl rfl ⟨fun _ => ⟨by simp [isWord, hc], by simp, fun d hd => ?_⟩,
      fun kind => absurd rfl kind⟩ fun u hu kind first => absurd first (apart u hu kind)
    obtain ⟨r, rfl⟩ : ∃ r, s = d :: r := by
      cases s with
      | nil => contradiction
      | cons x r => exact ⟨r, by rw [Option.some.inj hd]⟩
    by_contra hword
    obtain ⟨t, ht, kind, first⟩ := head_tokens_wordChar (Bool.not_eq_false _ ▸ hword) r
    exact apart t ht kind first
  generalize tokens .code s = ts at h alone
  cases h with
  | nil => exact alone (by simp)
  | @cons _ t ts s head tail =>
    rw [Token.consWord]
    split
    · rename_i joined
      obtain ⟨word, left, right⟩ := head.word joined.1
      obtain ⟨full, chars⟩ := isWord_iff.mp word
      have source : c :: (t.source ++ s) = { t with text := c :: t.text : Token }.source ++ s := by
        simp [Token.source, joined.2]
      rw [source]
      refine .cons ⟨fun _ => ⟨?_, left, right⟩, fun other => absurd joined.1 other⟩ ?_
      · exact isWord_iff.mpr ⟨by simp, List.forall_mem_cons.mpr ⟨hc, chars⟩⟩
      · have more := tail.extend [c] fun u _ _ empty => absurd empty (by simp [Token.source, full])
        simpa [Token.source, joined.2] using more
    · rename_i apart
      refine alone fun u hu kind first => apart ?_
      obtain rfl : t = u := Option.some.inj hu
      exact ⟨kind, first⟩

/-- The tokens of a text are cut from it. -/
theorem cut_tokens (m : Mode) (s : List Char) : Cut [] (tokens m s) s := by
  have comment {m : Mode} {s : List Char} (ih : Cut [] (tokens m s) s) (inside : m ≠ .code)
      (a : List Char) : Cut [] (Token.skip a (tokens m s)) (a ++ s) :=
    ih.skip a fun t ht kind first => absurd first (head_tokens_comment inside s t ht kind)
  fun_induction tokens m s with
  | case1 => exact .nil _ _
  | case2 s ih => exact comment ih (by decide) ['/', '/']
  | case3 s ih => exact comment ih (by decide) ['/', '*']
  | case4 s _ _ ih => exact ih.sign isSign_newline
  | case5 c s _ _ _ blank ih =>
    refine ih.skip [c] fun t ht kind first d hd => ?_
    obtain rfl : c = d := Option.some.inj hd
    exact Bool.eq_false_iff.mpr fun word => by simp [isBlank_of_isWordChar word] at blank
  | case6 c s _ _ _ _ hc ih => exact ih.word hc
  | case7 c s _ _ _ hb hc ih =>
    exact ih.sign ⟨rfl, Bool.eq_false_iff.mpr hc, .inr (Bool.eq_false_iff.mpr hb)⟩
  | case8 s ih => exact ih.sign isSign_newline
  | case9 c s _ ih => exact comment ih (by decide) [c]
  | case10 s ih =>
    refine ih.skip ['*', '/'] fun t ht kind first d hd => ?_
    obtain rfl : '/' = d := Option.some.inj hd
    decide
  | case11 s _ ih => exact ih.sign isSign_newline
  | case12 c s _ _ ih => exact comment ih (by decide) [c]

/-- No word begins where a text begins with no word character. -/
theorem head_tokens_apart {m : Mode} {s : List Char}
    (edge : ∀ c ∈ s.head?, isWordChar c = false) :
    ∀ t ∈ (tokens m s).head?, t.kind = .word → t.skipped ≠ [] := by
  intro t ht kind first
  have cut := cut_tokens m s
  cases hts : tokens m s with
  | nil => simp [hts] at ht
  | cons u ts =>
    rw [hts] at ht cut
    obtain rfl : u = t := Option.some.inj ht
    cases cut with
    | @cons _ _ _ rest head tail =>
      obtain ⟨full, chars⟩ := isWord_iff.mp (head.word kind).word
      obtain ⟨c, w, text⟩ := List.exists_cons_of_ne_nil full
      have word := chars c (text ▸ List.mem_cons_self)
      rw [edge c (by simp [Token.source, first, text])] at word
      contradiction

/-- The tokens of a text spell it up to its last token. -/
theorem tokens_spell (m : Mode) (s : List Char) :
    ∃ r, s = (tokens m s).flatMap Token.source ++ r := by
  have all : Cut [] (tokens m s ++ []) s := by
    rw [List.append_nil]
    exact cut_tokens m s
  obtain ⟨r, spelt, -⟩ := all.split
  exact ⟨r, spelt⟩

end Header
end HeaderWrap
