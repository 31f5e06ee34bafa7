import HeaderWrap.Proofs.Header.Marks
import HeaderWrap.Proofs.Text.Position

/-! The tokens of a text tile it: they stand one behind the other, and the characters between them are
the blanks of its code and what its comments hold beside newlines. -/
namespace HeaderWrap.Header
open Text

/-- A token, and the position where it begins. -/
structure Place where
  token : Token
  start : Nat
  deriving DecidableEq, Repr

namespace Place

def stop (p : Place) : Nat := p.start + p.token.text.length

def Covers (p : Place) (pos : Nat) : Prop := p.start ≤ pos ∧ pos < p.stop

end Place

def placesFrom : Nat → List Token → List Place
  | _, [] => []
  | pos, t :: ts => ⟨t, pos + t.skipped.length⟩ :: placesFrom (pos + t.source.length) ts

def places (text : String) : List Place := placesFrom 0 (tokens .code text.toList)

section
variable {pos : Nat} {ts : List Token}

private theorem le_start_placesFrom {p : Place} (h : p ∈ placesFrom pos ts) : pos ≤ p.start := by
  induction ts generalizing pos with
  | nil => contradiction
  | cons t ts ih =>
    rw [placesFrom] at h
    rcases List.mem_cons.mp h with rfl | h
    · exact Nat.le_add_right _ _
    · exact Nat.le_trans (Nat.le_add_right _ _) (ih h)

private theorem stop_first (t : Token) (pos : Nat) :
    (⟨t, pos + t.skipped.length⟩ : Place).stop = pos + t.source.length := by
  rw [Place.stop, Token.source, List.length_append, Nat.add_assoc]

/-- Each token begins behind the end of the one before. -/
theorem pairwise_placesFrom (pos : Nat) (ts : List Token) :
    (placesFrom pos ts).Pairwise fun p q => p.stop ≤ q.start := by
  induction ts generalizing pos with
  | nil => exact .nil
  | cons t ts ih =>
    refine List.pairwise_cons.mpr ⟨fun q hq => ?_, ih _⟩
    rw [stop_first]
    exact le_start_placesFrom hq

/-- Tokens stand in the text that they are cut from. -/
theorem Cut.stands_placesFrom {before s : List Char} (h : Cut before ts s) {p : Place}
    (hp : p ∈ placesFrom before.length ts) :
    ∃ left right, before ++ s = left ++ (p.token.text ++ right) ∧ left.length = p.start ∧
      Stands left p.token right := by
  induction h with
  | nil => contradiction
  | @cons before t ts s head tail ih =>
    rw [placesFrom] at hp
    rcases List.mem_cons.mp hp with rfl | hp
    · refine ⟨before ++ t.skipped, s, ?_, List.length_append, head⟩
      rw [Token.source, List.append_assoc, List.append_assoc]
    · rw [← List.length_append] at hp
      obtain ⟨left, right, split, place, stands⟩ := ih hp
      refine ⟨left, right, ?_, place, stands⟩
      rw [← split, List.append_assoc]

/-- A character belongs to a token just if it is marked so. -/
theorem exists_place_iff (pos : Nat) (ts : List Token) (s : List Char) (i : Nat) (kind : TokenKind) :
    (∃ p ∈ placesFrom pos ts, p.Covers (pos + i) ∧ p.token.kind = kind) ↔
      ∃ c, (marks ts s)[i]? = some (c, some kind) := by
  induction ts generalizing pos s i with
  | nil => simp [placesFrom, marks]
  | cons t ts ih =>
    have length : t.source.length = t.skipped.length + t.text.length := List.length_append
    rw [placesFrom]
    simp only [List.mem_cons, exists_eq_or_imp, Place.Covers, stop_first]
    by_cases within : i < t.source.length
    · -- the later tokens stand behind the position
      have others : ¬ ∃ p ∈ placesFrom (pos + t.source.length) ts,
          (p.start ≤ pos + i ∧ pos + i < p.stop) ∧ p.token.kind = kind := by
        rintro ⟨p, hp, ⟨here, -⟩, -⟩
        have := le_start_placesFrom hp
        omega
      rw [or_iff_left others]
      by_cases skipped : i < t.skipped.length
      · obtain ⟨c, marked⟩ := marks_skipped ts s skipped
        rw [marked]
        refine iff_of_false (fun h => ?_) (by simp)
        omega
      · obtain ⟨c, marked⟩ := marks_text ts s (Nat.le_of_not_lt skipped) within
        rw [marked, and_iff_right (by omega)]
        simp
    · -- the first token stands in front of the position
      have first : ¬ ((pos + t.skipped.length ≤ pos + i ∧ pos + i < pos + t.source.length) ∧
          t.kind = kind) := by omega
      have place : pos + i = pos + t.source.length + (i - t.source.length) := by omega
      rw [or_iff_right first, marks_rest ts s (Nat.le_of_not_lt within), place]
      exact ih _ _ _

end

/-- The tokens of a text tile it. -/
structure Tiles (s : List Char) (ps : List Place) : Prop where
  stands : ∀ p ∈ ps, p.start < p.stop ∧ p.stop ≤ s.length ∧
    s = s.take p.start ++ (p.token.text ++ s.drop p.stop)
  ordered : ps.Pairwise fun p q => p.stop ≤ q.start
  newline : ∀ pos, s[pos]? = some '\n' ↔ ∃ p ∈ ps, p.start = pos ∧ p.token.kind = .newline
  /-- No word character stands beside a word. -/
  word : ∀ p ∈ ps, p.token.kind = .word → IsWhole (s.take p.start) p.token.text (s.drop p.stop)
  apart : ∀ p ∈ ps, ∀ q ∈ ps, p.token.kind = .word → q.token.kind = .word → p.stop ≠ q.start
  sign : ∀ p ∈ ps, p.token.kind ≠ .word → ∃ c, p.token.text = [c] ∧ IsSign c p.token.kind
  code : ∀ p ∈ ps, p.token.kind ≠ .newline → ∀ pos, p.Covers pos → ¬ InComment s pos
  rest : ∀ pos c, s[pos]? = some c →
    ((∀ p ∈ ps, ¬ p.Covers pos) ↔ c ≠ '\n' ∧ (InComment s pos ∨ isBlank c))

/-- The kind of the token that a character belongs to is told by the pieces of the text. -/
theorem exists_place_iff_kindIn {s : List Char} {ps : List Piece} (h : Sections ps s) {pos : Nat}
    {c : Char} {commented : Bool} (here : (charsOf ps)[pos]? = some (c, commented)) (kind : TokenKind) :
    (∃ p ∈ placesFrom 0 (tokens .code s), p.Covers pos ∧ p.token.kind = kind) ↔
      kindIn c commented = some kind := by
  have found := exists_place_iff 0 (tokens .code s) s pos kind
  rw [Nat.zero_add, marks_tokens h, List.getElem?_map, here] at found
  rw [found]
  simp

/-- A token of a text with what stands before and behind it. -/
theorem stands_tokens {s : List Char} {p : Place} (hp : p ∈ placesFrom 0 (tokens .code s)) :
    s = s.take p.start ++ (p.token.text ++ s.drop p.stop) ∧ p.stop ≤ s.length ∧
      s.take p.stop = s.take p.start ++ p.token.text ∧
      Stands (s.take p.start) p.token (s.drop p.stop) := by
  obtain ⟨left, right, split, place, stands⟩ := (cut_tokens .code s).stands_placesFrom hp
  rw [List.nil_append] at split
  have stop : (left ++ p.token.text).length = p.stop := by
    rw [List.length_append, place, Place.stop]
  have whole : s = left ++ p.token.text ++ right := by rw [split, List.append_assoc]
  have before : s.take p.start = left := by rw [split, ← place, List.take_left]
  have upTo : s.take p.stop = left ++ p.token.text := by rw [whole, ← stop, List.take_left]
  have behind : s.drop p.stop = right := by rw [whole, ← stop, List.drop_left]
  rw [before, behind]
  refine ⟨split, ?_, upTo, stands⟩
  rw [whole, ← stop]
  exact (List.prefix_append _ right).length_le

private theorem Place.covers_start {p : Place} (full : p.token.text ≠ []) : p.Covers p.start := by
  refine ⟨Nat.le_refl _, ?_⟩
  rw [Place.stop]
  exact Nat.lt_add_of_pos_right (List.length_pos_iff.mpr full)

private theorem getElem?_start {s : List Char} {p : Place} {c : Char}
    (hp : p ∈ placesFrom 0 (tokens .code s)) (single : p.token.text = [c]) :
    s[p.start]? = some c := by
  obtain ⟨split, within, -, -⟩ := stands_tokens hp
  have front : (s.take p.start).length = p.start := by
    rw [List.length_take, Nat.min_eq_left]
    exact Nat.le_trans (Nat.le_add_right _ _) within
  rw [split, List.getElem?_append_right (Nat.le_of_eq front), front, Nat.sub_self, single]
  rfl

private theorem tiles_tokens (s : List Char) : Tiles s (placesFrom 0 (tokens .code s)) := by
  obtain ⟨ps, cut⟩ := exists_sections s
  have chars {pos : Nat} {c : Char} (here : s[pos]? = some c) :
      ∃ commented, (charsOf ps)[pos]? = some (c, commented) := by
    rw [← map_fst_charsOf cut, List.getElem?_map] at here
    obtain ⟨⟨d, commented⟩, found, rfl⟩ := Option.map_eq_some_iff.mp here
    exact ⟨commented, found⟩
  constructor
  case stands =>
    intro p hp
    obtain ⟨split, within, -, stands⟩ := stands_tokens hp
    exact ⟨(Place.covers_start stands.full).2, within, split⟩
  case ordered => exact pairwise_placesFrom 0 _
  case newline =>
    intro pos
    constructor
    · intro here
      obtain ⟨commented, found⟩ := chars here
      obtain ⟨p, hp, ⟨start, stop⟩, newline⟩ :=
        (exists_place_iff_kindIn cut found .newline).mpr (kindIn_eq_newline_iff.mpr rfl)
      obtain ⟨c, single, -⟩ := (stands_tokens hp).2.2.2.sign (by simp [newline])
      rw [Place.stop, single, List.length_singleton] at stop
      exact ⟨p, hp, by omega, newline⟩
    · rintro ⟨p, hp, rfl, newline⟩
      obtain ⟨c, single, sign⟩ := (stands_tokens hp).2.2.2.sign (by simp [newline])
      obtain rfl : c = '\n' := eq_of_kindOf (d := '\n') (by decide) (sign.own.trans newline)
      exact getElem?_start hp single
  case word => exact fun p hp word => (stands_tokens hp).2.2.2.word word
  case apart =>
    intro p hp q hq word word' touch
    obtain ⟨-, -, upTo, stands⟩ := stands_tokens hp
    have behind := ((stands_tokens hq).2.2.2.word word').before
    obtain ⟨full, chars⟩ := isWord_iff.mp (stands.word word).word
    -- the last character of the first word stands in front of the second
    rw [← touch, upTo, List.getLast?_append_of_ne_nil _ full,
      List.getLast?_eq_some_getLast full] at behind
    have last := chars _ (List.getLast_mem full)
    rw [behind _ rfl] at last
    contradiction
  case sign => exact fun p hp other => (stands_tokens hp).2.2.2.sign other
  case code =>
    intro p hp plain pos covers comment
    have inside : pos < s.length := Nat.lt_of_lt_of_le covers.2 (stands_tokens hp).2.1
    obtain ⟨commented, found⟩ := chars (List.getElem?_eq_getElem inside)
    have kind := (exists_place_iff_kindIn cut found p.token.kind).mp ⟨p, hp, covers, rfl⟩
    have code := code_of_kindIn kind plain
    rw [inComment_iff cut found, code] at comment
    contradiction
  case rest =>
    intro pos c here
    obtain ⟨commented, found⟩ := chars here
    rw [inComment_iff cut found, ← kindIn_eq_none_iff, Option.eq_none_iff_forall_ne_some]
    constructor
    · intro none kind marked
      obtain ⟨p, hp, covers, -⟩ := (exists_place_iff_kindIn cut found kind).mpr marked
      exact none p hp covers
    · intro none p hp covers
      exact none p.token.kind ((exists_place_iff_kindIn cut found _).mp ⟨p, hp, covers, rfl⟩)

/-- The tokens of a text stand in it one behind the other and hold at least a character each; they begin
and end between two characters, and their bytes are those of the text there. Every newline is a token,
and no token but a newline lies in a comment. A word has no word character beside it, so no two words
touch; every other token is the single character that its kind stands for. The characters of no token
are those of comments and the blanks of code, newlines apart. -/
theorem tokens_tile (text : String) :
    let byte := byteAt text.toList
    Tiles text.toList (places text) ∧
    ((places text).Pairwise fun p q => byte p.stop ≤ byte q.start) ∧
    ∀ p ∈ places text, String.Pos.Raw.IsValid text ⟨byte p.start⟩ ∧
      String.Pos.Raw.IsValid text ⟨byte p.stop⟩ ∧ byte p.start < byte p.stop ∧
      byte p.stop = byte p.start + byteLength p.token.text ∧
      text.toByteArray.extract (byte p.start) (byte p.stop) = p.token.text.utf8Encode := by
  intro byte
  have tiles : Tiles text.toList (places text) := tiles_tokens text.toList
  refine ⟨tiles, tiles.ordered.imp fun order => byteAt_le _ order, fun p hp => ?_⟩
  obtain ⟨split, -, upTo, stands⟩ := stands_tokens hp
  have bytes : byte p.stop = byte p.start + byteLength p.token.text := by
    change byteLength (text.toList.take p.stop) = _
    rw [upTo, byteLength_append]
    rfl
  refine ⟨isValid_byteAt text _, isValid_byteAt text _, ?_, bytes, ?_⟩
  · rw [bytes]
    exact Nat.lt_add_of_pos_right (byteLength_pos stands.full)
  · rw [bytes]
    exact extract_of_split split

/-- The slash behind an opening mark closes no comment, and a newline in a comment stays a token. -/
example : (places "a /*/ b\n*/c").map (fun p => (p.token.text, p.start, p.stop)) =
    [(['a'], 0, 1), (['\n'], 7, 8), (['c'], 10, 11)] := by decide

end HeaderWrap.Header
