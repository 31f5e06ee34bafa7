import HeaderWrap.Proofs.Header.Canonical
import HeaderWrap.Proofs.Header.Locality
import HeaderWrap.Proofs.Header.Transparency

/-! Functions that are written into a header, one canonical declaration on each line, are read back
from it. -/
namespace HeaderWrap
open Text

namespace Header

private theorem joinLines_eq_self {ts : List Token} (inline : ∀ t ∈ ts, t.kind ≠ .newline) :
    joinLines ts = ts := by
  induction ts with
  | nil => rfl
  | cons t ts ih =>
    rw [joinLines, if_neg (inline t List.mem_cons_self),
      ih fun u hu => inline u (List.mem_cons_of_mem _ hu)]

private theorem spaced_concat {ts : List Token} (full : ts ≠ []) (t : Token) :
    spaced (ts ++ [t]) = spaced ts ++ [{ t with skipped := [' '] }] := by
  obtain ⟨u, us, rfl⟩ := List.exists_cons_of_ne_nil full
  simp [spaced]

private theorem spanText_spaced (ts : List Token) :
    spanText (spaced ts) = List.intercalate [' '] (ts.map Token.text) := by
  cases ts with
  | nil => rfl
  | cons t ts =>
    rw [spaced, spanText, List.map_cons, intercalate_cons, List.flatMap_map, List.flatMap_map]
    rfl

private theorem readHead_spaced {first name : List Char} {ts : List Token} (full : name ≠ [])
    (visible : name.head? ≠ some '_') (statement : isStatementWord first = false)
    (kept : isQualifier first → ∀ t ∈ ts.head?, t.kind ≠ .word) :
    readHead (spaced (word first :: ts ++ [word name])) =
      some (name, List.intercalate [' '] ((word first :: ts).map Token.text)) := by
  have kept : dropQualifiers maxQualifiers (spaced (word first :: ts)) =
      spaced (word first :: ts) := by
    cases ts with
    | nil => rfl
    | cons t ts =>
      rw [spaced, List.map_cons, maxQualifiers, dropQualifiers, if_neg]
      rintro ⟨-, qualifier, follows⟩
      exact kept qualifier t rfl follows
  have leading : name.dropWhile (· == '_') = name := by
    obtain ⟨c, name, rfl⟩ := List.exists_cons_of_ne_nil full
    exact List.dropWhile_cons_of_neg (by simpa using visible)
  rw [readHead, spaced_concat (List.cons_ne_nil _ _), List.getLast?_concat, List.dropLast_concat,
    kept, ← spanText_spaced]
  simp [spaced, word, leading, full, statement]

private theorem readPrototype_eq {head args : List Token} {lparen rparen : Token}
    {name result : List Char} (inHead : ∀ t ∈ head, isHeadToken t) (opens : lparen.kind = .lparen)
    (inArgs : ∀ t ∈ args, isArgToken t) (closes : rparen.kind = .rparen)
    (read : readHead (joinLines head) = some (name, result)) (after : List Token) :
    readPrototype (head ++ lparen :: (args ++ rparen :: after)) =
      (readEnd after).map fun next =>
        (⟨name, result, args.flatMap Token.source ++ rparen.skipped⟩, next) := by
  have notHead : ¬ isHeadToken lparen := by simp [isHeadToken, opens]
  have notArg : ¬ isArgToken rparen := by simp [isArgToken, closes]
  rw [readPrototype, List.takeWhile_append_of_pos inHead, List.dropWhile_append_of_pos inHead,
    List.takeWhile_cons_of_neg notHead, List.dropWhile_cons_of_neg notHead, List.append_nil, read]
  simp only [if_pos opens]
  rw [List.takeWhile_append_of_pos inArgs, List.dropWhile_append_of_pos inArgs,
    List.takeWhile_cons_of_neg notArg, List.dropWhile_cons_of_neg notArg, List.append_nil]
  simp only [if_pos closes]

private theorem splitParams_cons_blank {c : Char} (blank : isBlank c) (comma : c ≠ ',') (s : List Char) :
    splitParams (c :: s) = splitParams s := by
  have cut := splitOn_append_of_not_mem (b := [c]) (by simpa using comma.symm) s
  obtain ⟨w, ws, hw⟩ := List.exists_cons_of_ne_nil (List.splitOn_ne_nil ',' s)
  have same : trim (c :: w) = trim w := by rw [trim, List.dropWhile_cons_of_pos blank, trim]
  rw [List.singleton_append, hw] at cut
  rw [splitParams, splitParams, cut, hw]
  simp [same]

private theorem splitParams_intercalate {ps : List (List Char)}
    (plain : ∀ p ∈ ps, ',' ∉ p ∧ trim p ≠ []) :
    splitParams (List.intercalate [',', ' '] ps) = ps.map trim := by
  induction ps with
  | nil => rfl
  | cons p ps ih =>
    have ih := ih fun q hq => plain q (List.mem_cons_of_mem _ hq)
    obtain ⟨comma, blank⟩ := plain p List.mem_cons_self
    have front : splitParams p = [trim p] := by rw [splitParams_of_no_comma comma, if_neg blank]
    cases ps with
    | nil => simpa using front
    | cons q qs =>
      rw [List.intercalate_cons_cons, List.append_assoc]
      change splitParams (p ++ ',' :: ' ' :: List.intercalate [',', ' '] (q :: qs)) = _
      rw [splitParams_append_comma, splitParams_cons_blank (by decide) (by decide), front, ih]
      rfl

end Header

namespace Function
open Header

def prototype (f : Function) : String :=
  f.result.rawType ++ " " ++ f.name ++ "(" ++
    String.intercalate ", " (f.params.map Declaration.rawType) ++ ");"

def header (fs : List Function) : String := String.join (fs.map (·.prototype ++ "\n"))

/-- A function that its declaration says all about, but for the wrapper types. -/
structure IsCanonical (f : Function) : Prop where
  name : isWord f.name.toList
  /-- Leading underscores are no part of a name. -/
  visible : f.name.toList.head? ≠ some '_'
  result : f.result.IsCanonical .result
  params : ∀ p ∈ f.params, p.IsCanonical .parameter
  statement : ∀ w ∈ f.result.words.head?, isStatementWord w = false
  /-- A qualifier is dropped in front of another word. -/
  qualifier : ∀ w ∈ f.result.words.head?, isQualifier w → f.result.words.length = 1

instance (f : Function) : Decidable f.IsCanonical :=
  decidable_of_iff (isWord f.name.toList ∧ f.name.toList.head? ≠ some '_' ∧
      f.result.IsCanonical .result ∧ (∀ p ∈ f.params, p.IsCanonical .parameter) ∧
      (∀ w ∈ f.result.words.head?, isStatementWord w = false) ∧
      ∀ w ∈ f.result.words.head?, isQualifier w → f.result.words.length = 1)
    ⟨fun ⟨h₁, h₂, h₃, h₄, h₅, h₆⟩ => ⟨h₁, h₂, h₃, h₄, h₅, h₆⟩,
      fun h => ⟨h.name, h.visible, h.result, h.params, h.statement, h.qualifier⟩⟩

def register (registry : Registry) (f : Function) : Function where
  name := f.name
  result := f.result.register registry .result
  params := f.params.map (Declaration.register registry .parameter)

def args (f : Function) : List Char :=
  List.intercalate [',', ' '] (f.params.map (·.rawType.toList))

private theorem toList_prototype (f : Function) :
    f.prototype.toList =
      f.result.rawType.toList ++ ' ' :: f.name.toList ++ '(' :: (f.args ++ [')', ';']) := by
  have params : (String.intercalate ", " (f.params.map Declaration.rawType)).toList = f.args := by
    rw [String.toList_intercalate, List.map_map]
    rfl
  simp [prototype, params]

namespace IsCanonical
variable {f : Function}

private theorem mem_args (canonical : f.IsCanonical) :
    ∀ c ∈ f.args, isWordChar c ∨ c ∈ [' ', '*', '&', ','] := by
  intro c hc
  rcases mem_intercalate hc with hc | ⟨w, hw, hc⟩
  · simp only [List.mem_cons, List.not_mem_nil, or_false] at hc
    rcases hc with rfl | rfl
    · exact .inr (by simp)
    · exact .inr (by simp)
  · obtain ⟨p, hp, rfl⟩ := List.mem_map.mp hw
    refine ((canonical.params p hp).mem_rawType c hc).imp_right fun h => ?_
    exact List.mem_append_left [','] h

private theorem isArgToken_of_mem_args (canonical : f.IsCanonical) :
    ∀ t ∈ tokens .code f.args, isArgToken t := by
  intro t ht
  rcases kind_of_mem_tokens .code f.args t ht with newline | ⟨c, hc, plain, kind⟩
  · simp [isArgToken, newline]
  · rcases canonical.mem_args c hc with hw | hs
    · simp [isArgToken, kind, kindAt, hw]
    · simp only [List.mem_cons, List.not_mem_nil, or_false] at hs
      rcases hs with rfl | rfl | rfl | rfl
      · contradiction
      · rw [isArgToken, kind]
        decide
      · rw [isArgToken, kind]
        decide
      · rw [isArgToken, kind]
        decide

private theorem noSlash_prototype (canonical : f.IsCanonical) : '/' ∉ f.prototype.toList := by
  intro slash
  have notWord : ¬ isWordChar '/' := by decide
  simp only [toList_prototype, List.mem_append, List.mem_cons, List.not_mem_nil, or_false] at slash
  rcases slash with (h | h | h) | h | h | h
  · simpa [notWord] using canonical.result.mem_rawType _ h
  · contradiction
  · exact notWord ((isWord_iff.mp canonical.name).2 _ h)
  · contradiction
  · simpa [notWord] using canonical.mem_args _ h
  · simp at h

private theorem tokens_head (canonical : f.IsCanonical) :
    tokens .code (f.result.rawType.toList ++ ' ' :: f.name.toList) =
      spaced (f.result.lexemes ++ [word f.name.toList]) := by
  have atoms : ∀ t ∈ f.result.lexemes ++ [word f.name.toList], IsAtom t := by
    intro t ht
    rcases List.mem_append.mp ht with ht | ht
    · exact canonical.result.isAtom_of_mem_lexemes t ht
    · obtain rfl := List.mem_singleton.mp ht
      exact isAtom_word canonical.name
  obtain ⟨t, ts, hl⟩ := List.exists_cons_of_ne_nil f.result.lexemes_ne_nil
  rw [← tokens_intercalate atoms, Declaration.toList_rawType canonical.result.resolved, hl,
    List.cons_append, List.map_cons, List.map_cons, intercalate_cons, intercalate_cons]
  simp [word]

private theorem tokens_prototype (canonical : f.IsCanonical) :
    ∃ lparen rparen : Token, lparen.kind = .lparen ∧ rparen.kind = .rparen ∧
      f.args = (tokens .code f.args).flatMap Token.source ++ rparen.skipped ∧
      tokens .code f.prototype.toList =
        spaced (f.result.lexemes ++ [word f.name.toList]) ++
          lparen :: (tokens .code f.args ++ [rparen, ⟨[], .semi, [';']⟩]) := by
  have plain := canonical.noSlash_prototype
  rw [toList_prototype] at plain
  have inHead : '/' ∉ f.result.rawType.toList ++ ' ' :: f.name.toList := fun h =>
    plain (List.mem_append_left _ h)
  have inArgs : '/' ∉ f.args := fun h => plain (by simp [h])
  obtain ⟨gap, -, all⟩ := tokens_append_break .code _ (d := '(') ⟨by decide, by decide, by decide⟩
    (f.args ++ [')', ';'])
  obtain ⟨gap', spell, inner⟩ := tokens_append_break .code f.args (d := ')')
    ⟨by decide, by decide, by decide⟩ [';']
  rw [endMode_code inArgs] at inner
  rw [endMode_code inHead, canonical.tokens_head, tokens_code_cons_of_ne _ (by decide),
    if_neg (by decide), if_neg (by decide), if_neg (by decide), inner] at all
  exact ⟨⟨gap ++ [], .lparen, ['(']⟩, ⟨gap' ++ [], .rparen, [')']⟩, rfl, rfl,
    by rw [List.append_nil]; exact spell, by rw [toList_prototype, all]; rfl⟩

private theorem readHead_head (canonical : f.IsCanonical) :
    readHead (spaced (f.result.lexemes ++ [word f.name.toList])) =
      some (f.name.toList, f.result.rawType.toList) := by
  obtain ⟨w, ws, hw⟩ := List.exists_cons_of_ne_nil f.result.words_ne_nil
  have lexemes : f.result.lexemes = word w :: (ws.map word ++ f.result.modifier.lexemes) := by
    rw [canonical.result.lexemes_result, hw, List.map_cons, List.cons_append]
  rw [Declaration.toList_rawType canonical.result.resolved, lexemes]
  refine readHead_spaced (isWord_iff.mp canonical.name).1 canonical.visible
    (canonical.statement w (by simp [hw])) fun qualifier => ?_
  have alone := canonical.qualifier w (by simp [hw]) qualifier
  obtain rfl : ws = [] := by simpa [hw] using alone
  cases f.result.modifier <;> simp [Modifier.lexemes]

private theorem isHeadToken_of_mem_head (canonical : f.IsCanonical) :
    ∀ t ∈ spaced (f.result.lexemes ++ [word f.name.toList]), isHeadToken t ∧ t.kind ≠ .newline := by
  intro t ht
  obtain ⟨u, hu, hk⟩ := kind_of_mem_spaced ht
  have kind : u.kind = .word ∨ u.kind = .star := by
    simp only [canonical.result.lexemes_result, List.append_assoc, List.mem_append, List.mem_map,
      List.mem_singleton] at hu
    rcases hu with ⟨w, -, rfl⟩ | hu | rfl
    · exact .inl rfl
    · cases hm : f.result.modifier with
      | plain => simp [hm, Modifier.lexemes] at hu
      | pointer =>
        obtain rfl : u = ⟨[], .star, ['*']⟩ := by simpa [hm, Modifier.lexemes] using hu
        exact .inr rfl
      | reference => exact absurd hm (canonical.result.result rfl).2
    · exact .inl rfl
  rw [hk] at kind
  rcases kind with kind | kind
  · simp [isHeadToken, kind]
  · simp [isHeadToken, kind]

/-- A canonical declaration is found in its line. -/
theorem prototypes_prototype (canonical : f.IsCanonical) :
    prototypes f.prototype = [⟨f.name.toList, f.result.rawType.toList, f.args⟩] := by
  obtain ⟨lparen, rparen, opens, closes, spell, all⟩ := canonical.tokens_prototype
  have inHead := canonical.isHeadToken_of_mem_head
  obtain ⟨t, ts, hs⟩ : ∃ t ts, spaced (f.result.lexemes ++ [word f.name.toList]) = t :: ts := by
    rw [spaced_concat f.result.lexemes_ne_nil]
    exact List.exists_cons_of_ne_nil (by simp)
  have plain := (inHead t (hs ▸ List.mem_cons_self)).2
  rw [prototypes, all, hs, List.cons_append, prototypesOf_cons _ plain, ← List.cons_append, ← hs,
    readPrototype_eq (fun t ht => (inHead t ht).1) opens canonical.isArgToken_of_mem_args closes
      (by rw [joinLines_eq_self fun t ht => (inHead t ht).2, canonical.readHead_head]),
    ← spell]
  simp [readEnd, prototypesOf]

private theorem declare_args (canonical : f.IsCanonical) (registry : Registry) :
    declare registry f.args = f.params.map (Declaration.register registry .parameter) := by
  have parts : ∀ w ∈ f.params.map fun p => p.rawType.toList, ',' ∉ w ∧ trim w ≠ [] := by
    intro w hw
    obtain ⟨p, hp, rfl⟩ := List.mem_map.mp hw
    exact (canonical.params p hp).part_rawType
  rw [declare, args, splitParams_intercalate parts]
  simp only [List.map_map, Function.comp_def]
  refine List.map_congr_left fun p hp => ?_
  exact (canonical.params p hp).resolve_trim_rawType registry

private theorem closed_prototype (canonical : f.IsCanonical) :
    Closed (tokens .code f.prototype.toList) := by
  obtain ⟨lparen, rparen, -, -, -, all⟩ := canonical.tokens_prototype
  have last (ts : List Token) : Closed (ts ++ [⟨[], .semi, [';']⟩]) := by
    intro t ht
    rw [List.filter_append, List.getLast?_append] at ht
    obtain rfl : _ = t := Option.some.inj ht
    rfl
  rw [all]
  simpa using last (spaced (f.result.lexemes ++ [word f.name.toList]) ++
    lparen :: (tokens .code f.args ++ [rparen]))

/-- A canonical function is read back from its declaration. -/
theorem ofHeader_prototype (canonical : f.IsCanonical) (registry : Registry) :
    ofHeader registry f.prototype = [f.register registry] := by
  rw [ofHeader, signatures, canonical.prototypes_prototype, List.map_singleton,
    List.map_singleton, ofSignature_signature, canonical.declare_args, String.ofList_toList,
    String.ofList_toList, canonical.result.resolve_rawType, register]

/-- What is declared on the lines behind a canonical declaration is left alone. -/
theorem ofHeader_prototype_append (canonical : f.IsCanonical) (registry : Registry)
    (text : String) : ofHeader registry (f.prototype ++ "\n" ++ text) =
      f.register registry :: ofHeader registry text := by
  have unopened : endMode .code f.prototype.toList ≠ .blockComment := by
    rw [endMode_code canonical.noSlash_prototype]
    decide
  have single := canonical.ofHeader_prototype registry
  rw [ofHeader, signatures] at single
  rw [ofHeader, signatures, prototypes_append _ _ unopened canonical.closed_prototype,
    List.map_append, List.map_append, single]
  rfl

end IsCanonical

/-- Canonical functions are read back from a header that declares them. -/
theorem ofHeader_header (registry : Registry) (fs : List Function)
    (canonical : ∀ f ∈ fs, f.IsCanonical) :
    ofHeader registry (header fs) = fs.map (register registry) := by
  induction fs with
  | nil => simp [header, ofHeader, signatures, prototypes, tokens, prototypesOf]
  | cons f fs ih =>
    have lines : header (f :: fs) = f.prototype ++ "\n" ++ header fs := by
      rw [header, List.map_cons, String.join_cons, header]
    rw [lines, (canonical f List.mem_cons_self).ofHeader_prototype_append,
      ih fun g hg => canonical g (List.mem_cons_of_mem _ hg), List.map_cons]

theorem ofHeader_header_lvgl :
    let next (result? param? : Option String) : Function :=
      ⟨"lv_timer_next", .resolved "lv_timer_t" .pointer true "" result?,
        [.resolved "lv_timer_t" .reference false "t" param?,
          .resolved "unsigned int" .plain false "n" none]⟩
    let tick : Function := ⟨"x1_", .resolved "LV_TICK" .plain false "" none, []⟩
    let const : Function := ⟨"const", .resolved "int" .plain false "" none,
      [.resolved "INLINE" .plain true "" none, .resolved "long long" .pointer true "" none]⟩
    ofHeader Registry.lvgl (header [next none none, tick, const, tick]) =
      [next (some "const Timer") (some "Timer &"), tick, const, tick] :=
  (ofHeader_header Registry.lvgl _ (by decide +kernel)).trans (by decide +kernel)

end Function
end HeaderWrap
