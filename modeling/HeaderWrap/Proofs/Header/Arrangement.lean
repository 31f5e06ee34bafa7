import Mathlib.Data.List.Chain
import HeaderWrap.Proofs.Header.Grammar

/-! Layout: whatever blanks, newlines and comments stand between the words and symbols of a
fragment, it is the sequence of these that decides whether the fragment is a declaration, and
which. -/
namespace HeaderWrap.Header
open Text

/-- Text between tokens: blanks, newlines and closed comments. A block comment ends at the first
`*/` behind its opening. -/
inductive Gap : List Char → Prop
  | nil : Gap []
  | blank {c : Char} {s : List Char} (blank : isBlank c) (rest : Gap s) : Gap (c :: s)
  | line {body s : List Char} (inline : '\n' ∉ body) (rest : Gap s) :
      Gap ('/' :: '/' :: (body ++ '\n' :: s))
  | block {body s : List Char} (inside : ¬ ['*', '/'] <:+: body) (rest : Gap s) :
      Gap ('/' :: '*' :: (body ++ '*' :: '/' :: s))

inductive IsPiece : Token → Prop
  | word {w : List Char} (chars : isWord w) : IsPiece (word w)
  | star : IsPiece ⟨[], .star, ['*']⟩
  | amp : IsPiece ⟨[], .amp, ['&']⟩

/-- Words and symbols with gaps in front of each and behind the last. Between two words there is
something. -/
structure Arrangement where
  /-- Each token with the gap in front of it. -/
  pieces : List (List Char × Token)
  last : List Char
  gaps : ∀ p ∈ pieces, Gap p.1
  tokens : ∀ p ∈ pieces, IsPiece p.2
  apart : pieces.IsChain fun p q => p.2.kind = .word → q.2.kind = .word → q.1 ≠ []
  lastGap : Gap last

namespace Arrangement

def chars (pieces : List (List Char × Token)) (last : List Char) : List Char :=
  pieces.flatMap (fun p => p.1 ++ p.2.text) ++ last

def text (a : Arrangement) : String := String.ofList (chars a.pieces a.last)

def sequence (a : Arrangement) : List Token := a.pieces.map Prod.snd

end Arrangement

private theorem clear_line {body : List Char} (inline : '\n' ∉ body) (s : List Char) :
    clear .lineComment (body ++ '\n' :: s) = '\n' :: clear .code s := by
  induction body with
  | nil => rfl
  | cons c body ih =>
    rw [List.mem_cons, not_or] at inline
    rw [List.cons_append, clear, if_neg (Ne.symm inline.1), ih inline.2]

private theorem clear_block {body : List Char} (inside : ¬ ['*', '/'] <:+: body) :
    ∃ b, (∀ c ∈ b, isBlank c) ∧
      ∀ s, clear .blockComment (body ++ '*' :: '/' :: s) = b ++ clear .code s := by
  induction body with
  | nil => exact ⟨[], by simp, fun s => rfl⟩
  | cons c body ih =>
    rw [List.infix_cons_iff, not_or] at inside
    obtain ⟨b, blank, rest⟩ := ih inside.2
    by_cases newline : c = '\n'
    · subst newline
      refine ⟨'\n' :: b, List.forall_mem_cons.mpr ⟨by decide, blank⟩, fun s => ?_⟩
      rw [List.cons_append, clear.eq_def]
      exact congrArg ('\n' :: ·) (rest s)
    · refine ⟨b, blank, fun s => ?_⟩
      rw [List.cons_append, clear_block_cons newline, rest]
      rintro r rfl hr
      cases body with
      | nil => exact absurd (List.cons.inj hr).1 (by decide)
      | cons d body =>
        obtain rfl : d = '/' := (List.cons.inj hr).1
        exact inside.1 (by simp)

namespace Gap
variable {g : List Char}

/-- A gap is cleared to blanks. -/
theorem clear_append (h : Gap g) :
    ∃ b, (∀ c ∈ b, isBlank c) ∧ ∀ s, clear .code (g ++ s) = b ++ clear .code s := by
  induction h with
  | nil => exact ⟨[], by simp, fun s => rfl⟩
  | @blank c g blank rest ih =>
    obtain ⟨b, blanks, cleared⟩ := ih
    refine ⟨c :: b, List.forall_mem_cons.mpr ⟨blank, blanks⟩, fun s => ?_⟩
    rw [List.cons_append, clear_code_cons_of_ne _ (slash_not_blank blank), cleared]
    rfl
  | @line body g inline rest ih =>
    obtain ⟨b, blanks, cleared⟩ := ih
    refine ⟨' ' :: '\n' :: b, ?_, fun s => ?_⟩
    · exact List.forall_mem_cons.mpr ⟨by decide, List.forall_mem_cons.mpr ⟨by decide, blanks⟩⟩
    · simp [clear, clear_line inline, cleared]
  | @block body g inside rest ih =>
    obtain ⟨b, blanks, cleared⟩ := ih
    obtain ⟨b', blanks', cleared'⟩ := clear_block inside
    refine ⟨' ' :: (b' ++ b), ?_, fun s => ?_⟩
    · exact List.forall_mem_cons.mpr ⟨by decide, List.forall_mem_append.mpr ⟨blanks', blanks⟩⟩
    · simp [clear, cleared', cleared]

/-- Gaps hold no tokens. -/
theorem lexemes_append (h : Gap g) (s : List Char) : lexemes (g ++ s) = lexemes s := by
  obtain ⟨b, blanks, cleared⟩ := h.clear_append
  rw [← lexemes_clear, cleared, lexemes_blanks_append _ blanks, lexemes_clear]

/-- No word goes on into a gap. -/
theorem edge (h : Gap g) : ∀ c ∈ g.head?, isWordChar c = false := by
  intro c hc
  cases h with
  | nil => contradiction
  | @blank d g blank rest =>
    obtain rfl : d = c := Option.some.inj hc
    exact Bool.eq_false_iff.mpr fun word => by simp [isBlank_of_isWordChar word] at blank
  | line =>
    obtain rfl : '/' = c := Option.some.inj hc
    decide
  | block =>
    obtain rfl : '/' = c := Option.some.inj hc
    decide

end Gap

namespace IsPiece
variable {t : Token}

/-- A symbol goes on with no word. -/
theorem edge (h : IsPiece t) (symbol : t.kind ≠ .word) : ∃ c, t.text = [c] ∧ isWordChar c = false := by
  cases h with
  | word => exact absurd rfl symbol
  | star => exact ⟨'*', rfl, by decide⟩
  | amp => exact ⟨'&', rfl, by decide⟩

/-- A piece is read as it stands, a word where the text behind it begins with no word character. -/
theorem lexemes_append (h : IsPiece t) {s : List Char}
    (edge : t.kind = .word → ∀ c ∈ s.head?, isWordChar c = false) :
    lexemes (t.text ++ s) = t :: lexemes s := by
  cases h with
  | word chars =>
    rw [lexemes, Header.word, tokens_word_append chars (edge rfl)]
    rfl
  | star =>
    change lexemes ('*' :: s) = _
    rw [lexemes, tokens_code_cons_of_ne s (by decide)]
    rfl
  | amp =>
    change lexemes ('&' :: s) = _
    rw [lexemes, tokens_code_cons_of_ne s (by decide)]
    rfl

end IsPiece

namespace Arrangement

private theorem edge_chars {t : Token} {pieces : List (List Char × Token)} {last : List Char}
    (gaps : ∀ p ∈ pieces, Gap p.1) (tokens : ∀ p ∈ pieces, IsPiece p.2) (lastGap : Gap last)
    (apart : ∀ q ∈ pieces.head?, t.kind = .word → q.2.kind = .word → q.1 ≠ [])
    (word : t.kind = .word) : ∀ c ∈ (chars pieces last).head?, isWordChar c = false := by
  cases pieces with
  | nil => exact lastGap.edge
  | cons q pieces =>
    have gap := gaps q List.mem_cons_self
    have apart := apart q rfl word
    rw [chars, List.flatMap_cons]
    obtain ⟨g, u⟩ := q
    cases g with
    | nil =>
      obtain ⟨c, text, other⟩ := (tokens _ List.mem_cons_self).edge fun kind => apart kind rfl
      have text : u.text = [c] := text
      intro d hd
      obtain rfl : c = d := by simpa [text] using hd
      exact other
    | cons d g =>
      intro c hc
      exact gap.edge c hc

private theorem lexemes_chars {pieces : List (List Char × Token)} {last : List Char}
    (gaps : ∀ p ∈ pieces, Gap p.1) (tokens : ∀ p ∈ pieces, IsPiece p.2) (lastGap : Gap last)
    (apart : pieces.IsChain fun p q => p.2.kind = .word → q.2.kind = .word → q.1 ≠ []) :
    lexemes (chars pieces last) = pieces.map Prod.snd := by
  induction pieces with
  | nil =>
    have none := lastGap.lexemes_append []
    rwa [List.append_nil] at none
  | cons p pieces ih =>
    obtain ⟨gap, gaps⟩ := List.forall_mem_cons.mp gaps
    obtain ⟨piece, tokens⟩ := List.forall_mem_cons.mp tokens
    obtain ⟨next, apart⟩ := List.isChain_cons.mp apart
    have split : chars (p :: pieces) last = p.1 ++ (p.2.text ++ chars pieces last) := by
      simp [chars]
    rw [split, gap.lexemes_append, piece.lexemes_append (edge_chars gaps tokens lastGap next),
      ih gaps tokens apart, List.map_cons]

/-- The tokens of a text are the sequence that it lays out. -/
theorem lexemes_text (a : Arrangement) : lexemes a.text.toList = a.sequence := by
  rw [text, String.toList_ofList]
  exact lexemes_chars a.gaps a.tokens a.lastGap a.apart

end Arrangement

private theorem isSome_wrapper?_resolve {registry : Registry} {position : Position} {fragment : String}
    (resolved : (resolve registry position fragment).isResolved) :
    (resolve registry position fragment).wrapper?.isSome =
      registry.contains (resolve registry position fragment).baseType := by
  rw [isResolved_resolve] at resolved
  obtain ⟨p, read⟩ := Option.isSome_iff_exists.mp resolved
  rw [resolve_of_parts read]
  exact Option.isSome_map

/-- A sequence of words and symbols stands for a declaration just if it is a phrase. However it is
laid out it stands for the same one, which has a wrapper type just if its base type is registered. -/
theorem resolve_arranged (registry : Registry) (position : Position) (a : Arrangement) :
    let d := resolve registry position a.text
    (d.isResolved ↔ ∃ g : Phrase, g.tokens = a.sequence) ∧
      (d.isResolved → ∀ b : Arrangement, b.sequence = a.sequence →
        resolve registry position b.text = d) ∧
      (d.isResolved → (d.wrapper?.isSome ↔ registry.contains d.baseType)) := by
  intro d
  refine ⟨?_, fun resolved b same => ?_, fun resolved => ?_⟩
  · rw [isResolved_resolve_iff, a.lexemes_text]
  · rw [isResolved_resolve] at resolved
    obtain ⟨p, read⟩ := Option.isSome_iff_exists.mp resolved
    have again : parts? position b.text = some p := by
      rw [parts?, b.lexemes_text, same, ← a.lexemes_text]
      exact read
    rw [resolve_of_parts again, ← resolve_of_parts read]
  · rw [isSome_wrapper?_resolve resolved]

def areaParam (behindTag behindSymbol : List Char) (tag : Gap behindTag) (symbol : Gap behindSymbol) :
    Arrangement where
  pieces := [([], word "const".toList), ([' '], word "struct".toList),
    (['\n'], word "_lv_area_t".toList), (behindTag, ⟨[], .star, ['*']⟩),
    (behindSymbol, word "area".toList)]
  last := []
  gaps := by
    simp only [List.forall_mem_cons]
    exact ⟨.nil, .blank (by decide) .nil, .blank (by decide) .nil, tag, symbol, by simp⟩
  tokens := by
    simp only [List.forall_mem_cons]
    exact ⟨.word (by decide), .word (by decide), .word (by decide), .star, .word (by decide),
      by simp⟩
  apart := by simp [word]
  lastGap := .nil

private theorem gap_block : Gap "/* in */".toList :=
  .block (show ¬ ['*', '/'] <:+: " in ".toList by decide) .nil

private theorem gap_line : Gap "// out\n".toList := .line (show '\n' ∉ " out".toList by decide) .nil

theorem resolve_arranged_area :
    let commented := areaParam "/* in */".toList "// out\n".toList gap_block gap_line
    let plain := areaParam [] [] .nil .nil
    let d := resolve .lvgl .parameter commented.text
    commented.text = "const struct\n_lv_area_t/* in */*// out\narea" ∧
      plain.text = "const struct\n_lv_area_t*area" ∧
      d.isResolved ∧ d.wrapper?.isSome ∧ resolve .lvgl .parameter plain.text = d := by
  intro commented plain d
  obtain ⟨accepts, same, wrapper⟩ := resolve_arranged .lvgl .parameter commented
  have phrase : ∃ g : Phrase, g.tokens = commented.sequence :=
    ⟨⟨["const".toList, "struct".toList], ["_lv_area_t".toList], .pointer, some "area".toList,
      by decide, by decide, by decide, by decide, by decide⟩, rfl⟩
  have resolved : d.isResolved := accepts.mpr phrase
  refine ⟨by decide, by decide, resolved, (wrapper resolved).mpr (by decide +kernel), ?_⟩
  exact same resolved plain rfl

end HeaderWrap.Header
