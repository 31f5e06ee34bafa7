import Mathlib.Data.List.Forall2
import Mathlib.Data.List.TakeWhile
import HeaderWrap.Proofs.Header.Recognition
import HeaderWrap.Proofs.Lists

/-! The identifiers that declarations are written with. Each is the whole word in front of the
parenthesis that opens the parameter list; the name that is recorded leaves out the underscores that
it begins with. -/
namespace HeaderWrap.Header
open Text

private theorem map_bare_skip (a : List Char) (ts : List Token) :
    (Token.skip a ts).map Token.bare = ts.map Token.bare := by
  cases ts with
  | nil => rfl
  | cons t ts => rfl

private theorem map_bare_joinLines (ts : List Token) :
    (joinLines ts).map Token.bare = (ts.filter (·.kind ≠ .newline)).map Token.bare := by
  induction ts with
  | nil => rfl
  | cons t ts ih =>
    rw [joinLines]
    split
    · rename_i newline
      rw [map_bare_skip, ih, List.filter_cons_of_neg (by simpa using newline)]
    · rename_i plain
      rw [List.map_cons, ih, List.filter_cons_of_pos (by simpa using plain), List.map_cons]

private theorem readHead_name {head : List Token} {name result : List Char}
    (h : readHead head = some (name, result)) :
    ∃ last, head.getLast? = some last ∧ last.kind = .word ∧
      name = last.text.dropWhile (· == '_') := by
  unfold readHead at h
  split at h
  · rename_i last _ _ found _
    dsimp only at h
    split at h
    · rename_i word
      exact ⟨last, found, word.1, (congrArg Prod.fst (Option.some.inj h)).symm⟩
    · contradiction
  · contradiction

structure Names (ts : List Token) (name : Token) (after : List Token) : Prop where
  word : name.kind = .word
  /-- Nothing but words, stars and newlines stands before it, and only newlines between it and the
  parenthesis. -/
  written : ∃ before gap lparen, ts = before ++ name :: (gap ++ lparen :: after) ∧
    (∀ t ∈ before, isHeadToken t) ∧ (∀ t ∈ gap, t.kind = .newline) ∧ lparen.kind = .lparen

/-- A declaration has an identifier, whose leading underscores are dropped. -/
theorem readPrototype_names {ts rest : List Token} {p : Prototype}
    (h : readPrototype ts = some (p, rest)) :
    ∃ name after, Names ts name after ∧ rest <:+ after ∧
      p.name = name.text.dropWhile (· == '_') := by
  obtain ⟨lparen, after, tail, opening, inner, named⟩ := readPrototype_head h
  obtain ⟨last, found, word, hname⟩ := readHead_name named
  have bare := congrArg List.getLast? (map_bare_joinLines (ts.takeWhile isHeadToken))
  rw [List.getLast?_map, List.getLast?_map, found] at bare
  obtain ⟨name, hlast, same⟩ := Option.map_eq_some_iff.mp bare.symm
  obtain ⟨before, gap, split, newlines⟩ := split_last_filter hlast
  have kind : name.kind = last.kind := congrArg (fun t => t.kind) same
  have text : name.text = last.text := congrArg (fun t => t.text) same
  refine ⟨name, after, ⟨kind.trans word, before, gap, lparen, ?_, fun t ht => ?_, fun t ht => ?_,
    opening⟩, inner, text ▸ hname⟩
  · rw [← List.takeWhile_append_dropWhile (p := isHeadToken) (l := ts), tail, split]
    simp
  · have taken : t ∈ ts.takeWhile isHeadToken := split ▸ List.mem_append_left _ ht
    exact List.mem_takeWhile_imp taken
  · simpa using newlines t ht

/-- The declarations that are read from some tokens one behind the other, and their identifiers. -/
inductive Declares : List Token → List (List Char) → List Prototype → Prop
  | nil (ts : List Token) : Declares ts [] []
  | cons {line after rest : List Token} {name : Token} {p : Prototype} {names : List (List Char)}
      {ps : List Prototype} (passed : List Token) (read : readPrototype line = some (p, rest))
      (named : Names line name after) (behind : rest <:+ after) (others : Declares rest names ps) :
      Declares (passed ++ line) (name.text :: names) (p :: ps)

namespace Declares
variable {ts : List Token} {names : List (List Char)} {ps : List Prototype}

/-- Tokens that begin no declaration are passed over. -/
theorem pass (h : Declares ts names ps) (passed : List Token) :
    Declares (passed ++ ts) names ps := by
  cases h with
  | nil ts => exact .nil _
  | cons before read named behind others =>
    rw [← List.append_assoc]
    exact .cons _ read named behind others

end Declares

/-- The names that are recorded are the identifiers without their leading underscores. -/
theorem exists_declares (ts : List Token) :
    ∃ names, Declares ts names (prototypesOf ts) ∧
      List.Forall₂ (fun name p => p.name = name.dropWhile (· == '_')) names (prototypesOf ts) := by
  fun_induction prototypesOf ts with
  | case1 => exact ⟨[], .nil _, .nil⟩
  | case2 t ts newline ih =>
    obtain ⟨names, declares, recorded⟩ := ih
    exact ⟨names, declares.pass [t], recorded⟩
  | case3 t ts plain p rest read ih =>
    obtain ⟨names, declares, recorded⟩ := ih
    obtain ⟨name, after, named, behind, hp⟩ := readPrototype_names read
    exact ⟨name.text :: names, .cons [] read named behind declares, .cons hp recorded⟩
  | case4 t ts plain none ih =>
    obtain ⟨names, declares, recorded⟩ := ih
    obtain ⟨passed, hpassed⟩ := nextLine_suffix (t :: ts)
    have all := declares.pass passed
    rw [hpassed] at all
    exact ⟨names, all, recorded⟩

/-- A whole word of a text, behind which a parenthesis opens. -/
def OpensBehind (name s : List Char) : Prop :=
  ∃ before gap after, s = before ++ name ++ (gap ++ '(' :: after) ∧
    IsWhole before name (gap ++ '(' :: after)

private theorem text_of_lparen {before after : List Char} {t : Token} (h : Stands before t after)
    (opening : t.kind = .lparen) : t.text = ['('] := by
  obtain ⟨c, text, sign⟩ := h.sign (by simp [opening])
  rw [text, eq_of_kindOf (d := '(') (by decide) (sign.own.trans opening)]

/-- An identifier is a word of the text that the tokens are cut from, and the text goes on behind
its parenthesis. -/
theorem Names.opensBehind {ts after : List Token} {name : Token} (named : Names ts name after)
    {before s : List Char} (cut : Cut before ts s) :
    OpensBehind name.text (before ++ s) ∧
      ∃ left rest, Cut left after rest ∧ left ++ rest = before ++ s := by
  obtain ⟨front, gap, lparen, rfl, -, -, opening⟩ := named.written
  obtain ⟨r, rfl, inner⟩ := cut.split
  cases inner with
  | @cons _ _ _ r head tail =>
    obtain ⟨r, rfl, inner⟩ := tail.split
    cases inner with
    | @cons _ _ _ r paren rest =>
      have text := text_of_lparen paren opening
      refine ⟨⟨before ++ front.flatMap Token.source ++ name.skipped,
        gap.flatMap Token.source ++ lparen.skipped, r, ?_, ?_⟩, _, r, rest, ?_⟩
      · simp [Token.source, text]
      · have whole := head.word named.word
        simpa [Token.source, text] using whole
      · simp

/-- The identifiers of declarations are words of the text that the tokens are cut from. -/
theorem Declares.opensBehind {ts : List Token} {names : List (List Char)} {ps : List Prototype}
    (h : Declares ts names ps) {before s : List Char} (cut : Cut before ts s) :
    ∀ name ∈ names, OpensBehind name (before ++ s) := by
  induction h generalizing before s with
  | nil => simp
  | cons passed read named behind others ih =>
    obtain ⟨r, rfl, line⟩ := cut.split
    obtain ⟨first, context, tail, later, same⟩ := named.opensBehind line
    obtain ⟨taken, rfl⟩ := behind
    obtain ⟨rest, rfl, next⟩ := later.split
    have all := ih next
    rw [List.append_assoc, same] at all
    rw [List.append_assoc] at first all
    exact List.forall_mem_cons.mpr ⟨first, all⟩

end HeaderWrap.Header
