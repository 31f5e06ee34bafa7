import HeaderWrap.Proofs.Header.Boundary
import HeaderWrap.Proofs.Header.Trimming
import HeaderWrap.Proofs.Lists

/-! The canonical text of a declaration: its words and its symbol with one space between them. A
declaration that the grammar can express is read back from it. -/
namespace HeaderWrap
open Text

namespace Header

def isPlainWord (w : List Char) : Bool :=
  isWord w && w ≠ "const".toList && w ≠ "struct".toList

def word (w : List Char) : Token := ⟨[], .word, w⟩

structure IsAtom (t : Token) : Prop where
  alone : tokens .code t.text = [t]
  bare : t.skipped = []
  inline : t.kind ≠ .newline
  noSlash : '/' ∉ t.text

def spaced : List Token → List Token
  | [] => []
  | t :: ts => t :: ts.map fun u => { u with skipped := [' '] }

/-- A word is read whole where the text behind it begins with no word character. -/
theorem tokens_word_append {w s : List Char} (hw : isWord w)
    (edge : ∀ c ∈ s.head?, isWordChar c = false) :
    tokens .code (w ++ s) = word w :: tokens .code s := by
  obtain ⟨full, chars⟩ := isWord_iff.mp hw
  clear hw
  induction w with
  | nil => contradiction
  | cons c w ih =>
    rw [List.cons_append, tokens_wordChar (chars c List.mem_cons_self)]
    cases w with
    | nil => exact consWord_eq_cons (head_tokens_apart edge)
    | cons d w =>
      rw [ih (by simp) fun x hx => chars x (List.mem_cons_of_mem _ hx)]
      rfl

theorem isAtom_word {w : List Char} (hw : isWord w) : IsAtom (word w) := by
  refine ⟨?_, rfl, by simp [word], fun slash => ?_⟩
  · have alone := tokens_word_append (s := []) hw (by simp)
    rwa [List.append_nil] at alone
  · exact absurd ((isWord_iff.mp hw).2 '/' slash) (by decide)

private theorem isAtom_star : IsAtom ⟨[], .star, ['*']⟩ := ⟨by decide, rfl, by decide, by decide⟩

private theorem isAtom_amp : IsAtom ⟨[], .amp, ['&']⟩ := ⟨by decide, rfl, by decide, by decide⟩

/-- Atoms with spaces between their texts are read as they are. -/
theorem tokens_intercalate {ts : List Token} (atoms : ∀ t ∈ ts, IsAtom t) :
    tokens .code (List.intercalate [' '] (ts.map Token.text)) = spaced ts := by
  induction ts with
  | nil => rfl
  | cons t ts ih =>
    have ht := atoms t List.mem_cons_self
    have ih := ih fun u hu => atoms u (List.mem_cons_of_mem _ hu)
    cases ts with
    | nil => simpa [spaced] using ht.alone
    | cons u us =>
      rw [List.map_cons] at ih
      rw [List.map_cons, List.map_cons, List.intercalate_cons_cons, List.append_assoc,
        List.singleton_append]
      obtain ⟨gap, spell, all⟩ := tokens_append_break .code t.text (d := ' ')
        ⟨by decide, by decide, by decide⟩ (List.intercalate [' '] (u.text :: us.map Token.text))
      have none : gap = [] := by
        rw [ht.alone] at spell
        simpa [Token.source, ht.bare] using spell
      rw [all, ht.alone, none, endMode_code ht.noSlash, tokens_code_cons_of_ne _ (by decide),
        if_neg (by decide), if_pos (by decide), ih, Token.skip_nil]
      simp [spaced, Token.skip, (atoms u (by simp)).bare]

theorem kind_of_mem_spaced {t : Token} {ts : List Token} (h : t ∈ spaced ts) :
    ∃ u ∈ ts, u.kind = t.kind := by
  cases ts with
  | nil => contradiction
  | cons u ts =>
    rcases List.mem_cons.mp h with rfl | h
    · exact ⟨t, List.mem_cons_self, rfl⟩
    · obtain ⟨v, hv, rfl⟩ := List.mem_map.mp h
      exact ⟨v, List.mem_cons_of_mem _ hv, rfl⟩

private theorem lexemes_spaced {ts : List Token} (atoms : ∀ t ∈ ts, IsAtom t) :
    ((spaced ts).filter (·.kind ≠ .newline)).map Token.bare = ts := by
  have bare (l : List Token) (h : ∀ t ∈ l, IsAtom t) : l.map Token.bare = l := by
    refine (List.map_congr_left fun t ht => ?_).trans (List.map_id l)
    obtain ⟨skipped, kind, text⟩ := t
    simpa [Token.bare] using ((h _ ht).bare).symm
  have all : ∀ t ∈ spaced ts, decide (t.kind ≠ .newline) := by
    intro t ht
    obtain ⟨u, hu, hk⟩ := kind_of_mem_spaced ht
    exact decide_eq_true (hk ▸ (atoms u hu).inline)
  rw [List.filter_eq_self.mpr all]
  cases ts with
  | nil => rfl
  | cons t ts =>
    rw [spaced, List.map_cons, List.map_map]
    exact bare (t :: ts) atoms

end Header

namespace Modifier

def lexemes : Modifier → List Header.Token
  | .plain => []
  | .pointer => [⟨[], .star, ['*']⟩]
  | .reference => [⟨[], .amp, ['&']⟩]

/-- A modifier is read from its token if no symbol follows. -/
theorem readModifier_lexemes (modifier : Modifier) {ts : List Header.Token}
    (alone : ts.head?.any Header.isModifier = false) :
    Header.readModifier (modifier.lexemes ++ ts) = some (modifier, ts) := by
  cases modifier with
  | plain =>
    cases ts with
    | nil => rfl
    | cons t ts => exact if_neg (Bool.eq_false_iff.mp alone)
  | pointer => exact if_neg (Bool.eq_false_iff.mp alone)
  | reference => exact if_neg (Bool.eq_false_iff.mp alone)

/-- Where there is a symbol it ends the words. -/
theorem kind_of_head_lexemes {modifier : Modifier} {ts : List Header.Token}
    (ended : modifier = .plain → ts = []) :
    ∀ t ∈ (modifier.lexemes ++ ts).head?, t.kind ≠ .word := by
  cases modifier with
  | plain => simp [ended rfl, lexemes]
  | pointer => simp [lexemes]
  | reference => simp [lexemes]

end Modifier

namespace Declaration
open Header

def typeWords (d : Declaration) : List (List Char) := d.baseType.toList.splitOn ' '

def words (d : Declaration) : List (List Char) :=
  (if d.isConst then ["const".toList] else []) ++ d.typeWords

def nameLexemes (d : Declaration) : List Token :=
  if d.name = "" then [] else [word d.name.toList]

def lexemes (d : Declaration) : List Token :=
  d.words.map word ++ d.modifier.lexemes ++ d.nameLexemes

private theorem typeWords_ne_nil (d : Declaration) : d.typeWords ≠ [] :=
  List.splitOn_ne_nil ' ' d.baseType.toList

theorem words_ne_nil (d : Declaration) : d.words ≠ [] := fun none =>
  d.typeWords_ne_nil (List.append_eq_nil_iff.mp none).2

theorem lexemes_ne_nil (d : Declaration) : d.lexemes ≠ [] := by
  simp [lexemes, words_ne_nil]

/-- A declaration that its canonical text says all about, but for the wrapper type. -/
structure IsCanonical (position : Position) (d : Declaration) : Prop where
  resolved : d.isResolved
  base : ∀ w ∈ d.typeWords, isPlainWord w
  name : d.name = "" ∨ isPlainWord d.name.toList
  /-- Of a plain parameter the last word is taken for the name. -/
  unnamed : position = .parameter → d.modifier = .plain → d.name = "" → d.typeWords.length = 1
  /-- A result has no name, and no `&` stands in front of a function's name. -/
  result : position = .result → d.name = "" ∧ d.modifier ≠ .reference

instance (position : Position) (d : Declaration) : Decidable (d.IsCanonical position) :=
  decidable_of_iff (d.isResolved ∧ (∀ w ∈ d.typeWords, isPlainWord w) ∧
      (d.name = "" ∨ isPlainWord d.name.toList) ∧
      (position = .parameter → d.modifier = .plain → d.name = "" → d.typeWords.length = 1) ∧
      (position = .result → d.name = "" ∧ d.modifier ≠ .reference))
    ⟨fun ⟨h₁, h₂, h₃, h₄, h₅⟩ => ⟨h₁, h₂, h₃, h₄, h₅⟩,
      fun h => ⟨h.resolved, h.base, h.name, h.unnamed, h.result⟩⟩

def register (registry : Registry) (position : Position) : Declaration → Declaration
  | .resolved base modifier isConst name _ =>
    .resolved base modifier isConst name
      (wrapperType? registry position ⟨isConst, base, modifier, name⟩)
  | .verbatim text => .verbatim text

def tail (modifier : Modifier) (name : String) : List (List Char) :=
  (if modifier = .plain then [] else [modifier.symbol.toList]) ++
    if name = "" then [] else [name.toList]

theorem map_text_lexemes (d : Declaration) :
    d.lexemes.map Token.text = d.words ++ tail d.modifier d.name := by
  have words : (d.words.map word).map Token.text = d.words := by
    rw [List.map_map]
    exact List.map_id _
  have symbol : d.modifier.lexemes.map Token.text =
      if d.modifier = .plain then [] else [d.modifier.symbol.toList] := by
    cases d.modifier <;> rfl
  rw [lexemes, List.map_append, List.map_append, words, symbol, tail, List.append_assoc,
    nameLexemes, apply_ite (List.map Token.text)]
  rfl

/-- The canonical text spells the tokens. -/
theorem toList_rawType {d : Declaration} (resolved : d.isResolved) :
    d.rawType.toList = List.intercalate [' '] (d.lexemes.map Token.text) := by
  cases d with
  | verbatim => contradiction
  | resolved base modifier isConst name wrapper? =>
    obtain ⟨w, ws, hw⟩ := List.exists_cons_of_ne_nil (List.splitOn_ne_nil ' ' base.toList)
    have spell : base.toList = w ++ ws.flatMap ([' '] ++ ·) := by
      rw [← intercalate_cons, ← hw, List.intercalate_splitOn]
    have texts : ((if isConst then ["const"] else []) ++ [base] ++
        (if modifier = .plain then [] else [modifier.symbol]) ++
          if name = "" then [] else [name]).map String.toList =
        (if isConst then ["const".toList] else []) ++ base.toList :: tail modifier name := by
      cases isConst <;> simp [tail, apply_ite (List.map String.toList)]
    rw [map_text_lexemes, rawType, canonical, unwords, String.toList_intercalate, texts]
    simp only [words, typeWords, Declaration.isConst, baseType, Declaration.modifier,
      Declaration.name, hw]
    cases isConst <;> simp [intercalate_cons, spell]

theorem isPlainWord_iff {w : List Char} :
    isPlainWord w ↔ isWord w ∧ w ≠ "const".toList ∧ w ≠ "struct".toList := by
  simp [isPlainWord, and_assoc]

/-- Words that are no qualifiers are left to the type. -/
theorem readQualifiers_word {isConst isStruct : Bool} {w : List Char} (plain : isPlainWord w)
    (ts : List Token) :
    readQualifiers isConst isStruct (word w :: ts) = some (isConst, isStruct, word w :: ts) := by
  obtain ⟨-, const, struct⟩ := isPlainWord_iff.mp plain
  exact (if_neg const).trans (if_neg struct)

/-- The parts of a declaration, once its words, its symbol and its name are told apart. -/
theorem partsOf?_eq {position : Position} {ts after rest : List Token} {isConst isStruct : Bool}
    {words type : List (List Char)} {modifier : Modifier} {name : List Char}
    (read : readQualifiers false false ts = some (isConst, isStruct, words.map word ++ after))
    (full : words ≠ []) (plain : ∀ w ∈ words, isPlainWord w)
    (stop : ∀ t ∈ after.head?, t.kind ≠ .word) (symbol : readModifier after = some (modifier, rest))
    (named : readName position words modifier rest = some (type, name)) :
    partsOf? position ts =
      let base := List.intercalate [' '] type
      some ⟨isConst, String.ofList (if isStruct then stripTag base else base), modifier,
        String.ofList name⟩ := by
  have isWord : ∀ t ∈ words.map word, decide (t.kind = .word) := by
    intro t ht
    obtain ⟨w, -, rfl⟩ := List.mem_map.mp ht
    rfl
  have take : after.takeWhile (fun t => decide (t.kind = .word)) = [] := by
    cases after with
    | nil => rfl
    | cons t ts => exact List.takeWhile_cons_of_neg (by simpa using stop t rfl)
  have drop : after.dropWhile (fun t => decide (t.kind = .word)) = after := by
    cases after with
    | nil => rfl
    | cons t ts => exact List.dropWhile_cons_of_neg (by simpa using stop t rfl)
  have texts : (words.map word).map Token.text = words := by
    rw [List.map_map]
    exact List.map_id _
  have allowed : words ≠ [] ∧ !words.contains "const".toList ∧ !words.contains "struct".toList := by
    refine ⟨full, ?_, ?_⟩
    · simpa using fun const => (isPlainWord_iff.mp (plain _ const)).2.1 rfl
    · simpa using fun struct => (isPlainWord_iff.mp (plain _ struct)).2.2 rfl
  have guarded : (guard (words ≠ [] ∧ !words.contains "const".toList ∧
      !words.contains "struct".toList) : Option Unit) = some () := if_pos allowed
  rw [partsOf?, read, Option.bind_eq_bind, Option.bind_some]
  dsimp only
  rw [List.takeWhile_append_of_pos isWord, List.dropWhile_append_of_pos isWord, take, drop,
    List.append_nil, texts, guarded, symbol]
  change (readName position words modifier rest).bind _ = _
  rw [named]
  rfl

namespace IsCanonical
variable {position : Position} {d : Declaration}

private theorem isWord_of_mem_words (canonical : d.IsCanonical position) :
    ∀ w ∈ d.words, isWord w := by
  intro w hw
  rcases List.mem_append.mp hw with hw | hw
  · split at hw
    · obtain rfl : w = "const".toList := by simpa using hw
      decide
    · contradiction
  · exact (isPlainWord_iff.mp (canonical.base w hw)).1

theorem isAtom_of_mem_lexemes (canonical : d.IsCanonical position) :
    ∀ t ∈ d.lexemes, IsAtom t := by
  intro t ht
  rcases List.mem_append.mp ht with ht | ht
  · rcases List.mem_append.mp ht with ht | ht
    · obtain ⟨w, hw, rfl⟩ := List.mem_map.mp ht
      exact isAtom_word (canonical.isWord_of_mem_words w hw)
    · cases hm : d.modifier with
      | plain => simp [hm, Modifier.lexemes] at ht
      | pointer =>
        obtain rfl : t = ⟨[], .star, ['*']⟩ := by simpa [hm, Modifier.lexemes] using ht
        exact isAtom_star
      | reference =>
        obtain rfl : t = ⟨[], .amp, ['&']⟩ := by simpa [hm, Modifier.lexemes] using ht
        exact isAtom_amp
  · rw [nameLexemes] at ht
    split at ht
    · contradiction
    · rename_i named
      obtain rfl : t = word d.name.toList := by simpa using ht
      exact isAtom_word (isPlainWord_iff.mp (canonical.name.resolve_left named)).1

/-- The characters of the canonical text. -/
theorem mem_rawType (canonical : d.IsCanonical position) :
    ∀ c ∈ d.rawType.toList, isWordChar c ∨ c ∈ [' ', '*', '&'] := by
  intro c hc
  rw [toList_rawType canonical.resolved, map_text_lexemes] at hc
  rcases mem_intercalate hc with hc | ⟨w, hw, hc⟩
  · exact .inr (List.mem_cons.mpr (.inl (List.mem_singleton.mp hc)))
  · rcases List.mem_append.mp hw with hw | hw
    · exact .inl ((isWord_iff.mp (canonical.isWord_of_mem_words w hw)).2 c hc)
    · rcases List.mem_append.mp hw with hw | hw
      · cases hm : d.modifier <;> simp_all [Modifier.symbol]
      · split at hw
        · contradiction
        · rename_i named
          obtain rfl : w = d.name.toList := by simpa using hw
          have plain := isPlainWord_iff.mp (canonical.name.resolve_left named)
          exact .inl ((isWord_iff.mp plain.1).2 c hc)

/-- The canonical text is read token by token. -/
theorem tokens_rawType (canonical : d.IsCanonical position) :
    tokens .code d.rawType.toList = spaced d.lexemes := by
  rw [toList_rawType canonical.resolved, tokens_intercalate canonical.isAtom_of_mem_lexemes]

private theorem readQualifiers_words (canonical : d.IsCanonical position) (after : List Token) :
    readQualifiers false false (d.words.map word ++ after) =
      some (d.isConst, false, d.typeWords.map word ++ after) := by
  obtain ⟨w, ws, hw⟩ := List.exists_cons_of_ne_nil d.typeWords_ne_nil
  have plain := canonical.base w (hw ▸ List.mem_cons_self)
  rw [words, hw]
  cases d.isConst with
  | false => exact readQualifiers_word plain _
  | true => exact readQualifiers_word plain _

private theorem readName_nameLexemes (canonical : d.IsCanonical position)
    (apart : d.modifier = .plain → d.name = "") :
    readName position d.typeWords d.modifier d.nameLexemes = some (d.typeWords, d.name.toList) := by
  by_cases unnamed : d.name = ""
  · rw [nameLexemes, if_pos unnamed, readName, if_neg]
    · rw [unnamed]
      rfl
    · rintro ⟨plain, parameter, many⟩
      have single := canonical.unnamed parameter plain unnamed
      omega
  · have symbol : d.modifier ≠ .plain := fun plain => unnamed (apart plain)
    rw [nameLexemes, if_neg unnamed, readName, if_pos ⟨symbol, rfl⟩]
    rfl

private theorem readName_words (canonical : d.IsCanonical position) (named : d.name ≠ "") :
    readName position (d.typeWords ++ [d.name.toList]) .plain [] =
      some (d.typeWords, d.name.toList) := by
  have parameter : position = .parameter := by
    cases position with
    | parameter => rfl
    | result => exact absurd (canonical.result rfl).1 named
  have many : 1 < (d.typeWords ++ [d.name.toList]).length := by
    have some := List.length_pos_iff.mpr d.typeWords_ne_nil
    rw [List.length_append, List.length_singleton]
    omega
  rw [readName, if_pos ⟨rfl, parameter, many⟩, List.dropLast_concat, List.getLast?_concat]
  rfl

private theorem partsOf?_lexemes (canonical : d.IsCanonical position) :
    partsOf? position d.lexemes = some ⟨d.isConst, d.baseType, d.modifier, d.name⟩ := by
  have base : String.ofList (List.intercalate [' '] d.typeWords) = d.baseType := by
    rw [typeWords, List.intercalate_splitOn, String.ofList_toList]
  by_cases apart : d.modifier = .plain → d.name = ""
  · have alone : d.nameLexemes.head?.any isModifier = false := by
      rw [nameLexemes]
      split
      · rfl
      · rfl
    have ended : d.modifier = .plain → d.nameLexemes = [] := fun plain => if_pos (apart plain)
    rw [lexemes, List.append_assoc, partsOf?_eq (canonical.readQualifiers_words _)
      d.typeWords_ne_nil canonical.base (Modifier.kind_of_head_lexemes ended)
      (Modifier.readModifier_lexemes _ alone) (canonical.readName_nameLexemes apart)]
    dsimp only
    rw [if_neg Bool.false_ne_true, base, String.ofList_toList]
  · -- The words of the type and the name stand together.
    obtain ⟨plain, named⟩ := Classical.not_imp.mp apart
    have together : d.typeWords.map word ++ d.nameLexemes =
        (d.typeWords ++ [d.name.toList]).map word ++ [] := by
      rw [nameLexemes, if_neg named, List.map_append, List.append_nil]
      rfl
    have words : ∀ w ∈ d.typeWords ++ [d.name.toList], isPlainWord w := by
      intro w hw
      rcases List.mem_append.mp hw with hw | hw
      · exact canonical.base w hw
      · obtain rfl := List.mem_singleton.mp hw
        exact canonical.name.resolve_left named
    have read := canonical.readQualifiers_words d.nameLexemes
    rw [together] at read
    rw [lexemes, plain, Modifier.lexemes, List.append_nil,
      partsOf?_eq read (by simp) words (by simp) rfl (canonical.readName_words named)]
    dsimp only
    rw [if_neg Bool.false_ne_true, base, String.ofList_toList]

/-- A result has no name. -/
theorem lexemes_result (canonical : d.IsCanonical .result) :
    d.lexemes = d.words.map word ++ d.modifier.lexemes := by
  rw [lexemes, nameLexemes, if_pos (canonical.result rfl).1, List.append_nil]

/-- A fragment with the tokens of a canonical declaration stands for it. -/
theorem resolve_eq (canonical : d.IsCanonical position) (registry : Registry) {s : List Char}
    (same : Header.lexemes s = d.lexemes) :
    resolve registry position (String.ofList s) = d.register registry position := by
  have read : parts? position (String.ofList s) =
      some ⟨d.isConst, d.baseType, d.modifier, d.name⟩ := by
    rw [parts?, String.toList_ofList, same, canonical.partsOf?_lexemes]
  rw [resolve, read]
  cases d with
  | resolved base modifier isConst name wrapper? => rfl
  | verbatim text => exact absurd canonical.resolved (by simp [isResolved])

theorem lexemes_rawType (canonical : d.IsCanonical position) :
    Header.lexemes d.rawType.toList = d.lexemes := by
  rw [Header.lexemes, canonical.tokens_rawType,
    lexemes_spaced canonical.isAtom_of_mem_lexemes]

/-- The canonical text of a parameter is one part of a list. -/
theorem part_rawType (canonical : d.IsCanonical position) :
    ',' ∉ d.rawType.toList ∧ trim d.rawType.toList ≠ [] := by
  constructor
  · intro comma
    have notWord : ¬ isWordChar ',' := by decide
    simpa [notWord] using canonical.mem_rawType _ comma
  · intro blank
    have none : Header.lexemes (trim d.rawType.toList) = [] := by rw [blank]; rfl
    rw [lexemes_trim, canonical.lexemes_rawType] at none
    exact d.lexemes_ne_nil none

/-- A canonical declaration is read back from its text, whatever blanks stand around it. -/
theorem resolve_trim_rawType (canonical : d.IsCanonical position) (registry : Registry) :
    resolve registry position (String.ofList (trim d.rawType.toList)) =
      d.register registry position :=
  canonical.resolve_eq registry ((lexemes_trim _).trans canonical.lexemes_rawType)

theorem resolve_rawType (canonical : d.IsCanonical position) (registry : Registry) :
    resolve registry position d.rawType = d.register registry position := by
  rw [← String.ofList_toList (s := d.rawType)]
  exact canonical.resolve_eq registry canonical.lexemes_rawType

end IsCanonical

end Declaration
end HeaderWrap
