import HeaderWrap.Proofs.Header.Grammar

/-! The canonical text of a declaration is read as that declaration, unless the tag of a structure
was cut down to nothing or to a qualifier. -/
namespace HeaderWrap.Header
open Text

private theorem lexemes_append_blank {s : List Char} (closed : '/' ∉ s) {c : Char} (blank : isBlank c)
    (r : List Char) : lexemes (s ++ c :: r) = lexemes s ++ lexemes r := by
  have word : isWordChar c = false :=
    Bool.eq_false_iff.mpr fun word => by simp [isBlank_of_isWordChar word] at blank
  have star : c ≠ '*' := by
    rintro rfl
    contradiction
  obtain ⟨gap, -, all⟩ :=
    tokens_append_break .code s (d := c) ⟨word, slash_not_blank blank, star⟩ r
  have behind := lexemes_blanks_append (a := [c]) r (by simpa using blank)
  rw [lexemes, all, List.filter_append, List.map_append, filter_skip, endMode_code closed,
    ← behind]
  rfl

/-- Texts with spaces between them are read one by one. -/
theorem lexemes_intercalate {xs : List (List Char)} (closed : ∀ x ∈ xs, '/' ∉ x) :
    lexemes (List.intercalate [' '] xs) = xs.flatMap lexemes := by
  induction xs with
  | nil => rfl
  | cons x xs ih =>
    obtain ⟨first, others⟩ := List.forall_mem_cons.mp closed
    cases xs with
    | nil => simp
    | cons y ys =>
      rw [List.intercalate_cons_cons, List.append_assoc, List.singleton_append,
        lexemes_append_blank first (by decide), ih others]
      exact List.flatMap_cons.symm

private theorem lexemes_word {w : List Char} (chars : isWord w) : lexemes w = [word w] := by
  have alone : Header.tokens .code w = [word w] := (isAtom_word chars).alone
  rw [lexemes, alone]
  rfl

private theorem flatMap_lexemes {ws : List (List Char)} (plain : ∀ w ∈ ws, isPlainWord w) :
    ws.flatMap lexemes = ws.map word := by
  rw [← List.flatMap_pure_eq_map]
  refine List.flatMap_congr fun w hw => ?_
  exact lexemes_word (Declaration.isPlainWord_iff.mp (plain w hw)).1

private theorem stripTag_suffix (s : List Char) : stripTag s <:+ s := by
  unfold stripTag
  split
  · exact List.suffix_cons _ _
  · exact List.suffix_refl _

private theorem stripTag_word {w : List Char} (chars : isWord w) :
    stripTag w = [] ∨ isWord (stripTag w) := by
  by_cases empty : stripTag w = []
  · exact .inl empty
  · refine .inr (isWord_iff.mpr ⟨empty, fun c hc => ?_⟩)
    exact (isWord_iff.mp chars).2 c ((stripTag_suffix w).subset hc)

namespace Phrase
variable (g : Phrase) (position : Position)

def kept : List (List Char) := g.qualifiers.filter (· = "const".toList)

private theorem mem_kept_iff {q : List Char} :
    q ∈ g.kept ↔ q ∈ g.qualifiers ∧ q = "const".toList := by
  rw [kept, List.mem_filter, decide_eq_true_eq]

private theorem kept_eq : g.kept = if "const".toList ∈ g.qualifiers then ["const".toList] else [] := by
  rw [kept, List.filter_eq, g.once.count]
  split
  · rfl
  · rfl

def spelling : List (List Char) :=
  g.kept ++ (g.untagged ++
    ((if g.modifier = .plain then [] else [g.modifier.symbol.toList]) ++ g.name?.toList))

def declaration : Declaration :=
  let p := g.parts position
  .resolved p.base p.modifier p.isConst p.name none

private theorem words_of_struct (struct : "struct".toList ∈ g.qualifiers) :
    ∃ tag ws, g.words = tag :: ws ∧ g.untagged = stripTag tag :: ws := by
  obtain ⟨tag, ws, words, -⟩ := g.exists_first
  refine ⟨tag, ws, words, ?_⟩
  rw [untagged, if_pos struct, words]
  rfl

private theorem length_untagged : g.untagged.length = g.words.length := by
  rw [untagged]
  split
  · exact List.length_modifyHead
  · rfl

private theorem mem_untagged : ∀ w ∈ g.untagged, w = [] ∨ isWord w := by
  intro w hw
  have chars : ∀ v ∈ g.words, isWord v := fun v hv =>
    (Declaration.isPlainWord_iff.mp (g.plain v hv)).1
  by_cases struct : "struct".toList ∈ g.qualifiers
  · obtain ⟨tag, ws, words, untagged⟩ := g.words_of_struct struct
    rw [words] at chars
    obtain ⟨first, others⟩ := List.forall_mem_cons.mp chars
    rw [untagged] at hw
    rcases List.mem_cons.mp hw with rfl | hw
    · exact stripTag_word first
    · exact .inr (others w hw)
  · rw [untagged, if_neg struct] at hw
    exact .inr (chars w hw)

private theorem exists_last (several : 1 < g.words.length) :
    ∃ rest w, g.untagged = rest ++ [w] ∧ g.words.getLast? = some w ∧ isPlainWord w := by
  obtain ⟨v, ws, words, -⟩ := g.exists_first
  rw [words, List.length_cons] at several
  have full : ws ≠ [] := List.ne_nil_of_length_pos (by omega)
  have last := List.dropLast_concat_getLast full
  have plain : isPlainWord (ws.getLast full) :=
    g.plain _ (words ▸ List.mem_cons_of_mem _ (List.getLast_mem full))
  have found : g.words.getLast? = some (ws.getLast full) := by
    rw [words, List.getLast?_cons_of_ne_nil full, List.getLast?_eq_some_getLast full]
  by_cases struct : "struct".toList ∈ g.qualifiers
  · refine ⟨stripTag v :: ws.dropLast, _, ?_, found, plain⟩
    rw [untagged, if_pos struct, words, List.cons_append, last]
    rfl
  · refine ⟨v :: ws.dropLast, _, ?_, found, plain⟩
    rw [untagged, if_neg struct, words, List.cons_append, last]

private theorem type_append_tail :
    g.type position ++ Declaration.tail g.modifier (String.ofList (g.name position)) =
      g.untagged ++ ((if g.modifier = .plain then [] else [g.modifier.symbol.toList]) ++
        g.name?.toList) := by
  rw [type, name, Declaration.tail]
  by_cases ends : g.EndsInName position
  · obtain ⟨rest, w, untagged, last, plain⟩ := g.exists_last ends.2.2
    have full : w ≠ [] := (isWord_iff.mp (Declaration.isPlainWord_iff.mp plain).1).1
    have unnamed : g.name? = none := by
      cases behind : g.name? with
      | none => rfl
      | some v => exact absurd ends.1 (g.named v behind).2
    rw [if_pos ends, if_pos ends, if_pos ends.1, untagged, last, unnamed, List.dropLast_concat]
    simp [full]
  · rw [if_neg ends, if_neg ends]
    cases behind : g.name? with
    | none => simp
    | some w =>
      have full : w ≠ [] := (isWord_iff.mp (g.named w behind).1).1
      simp [full]

private theorem type_ne_nil : g.type position ≠ [] := by
  have full := List.length_pos_iff.mpr g.full
  apply List.ne_nil_of_length_pos
  rw [type]
  split
  · rename_i ends
    have several := ends.2.2
    rw [List.length_dropLast, length_untagged]
    omega
  · rwa [length_untagged]

private theorem mem_type : ∀ w ∈ g.type position, w ∈ g.untagged := by
  intro w hw
  rw [type] at hw
  split at hw
  · exact (List.dropLast_sublist _).subset hw
  · exact hw

private theorem typeWords_declaration : (g.declaration position).typeWords = g.type position := by
  rw [Declaration.typeWords]
  change (String.ofList (List.intercalate [' '] (g.type position))).toList.splitOn ' ' = _
  rw [String.toList_ofList]
  refine List.splitOn_intercalate _ (fun w hw space => ?_) (g.type_ne_nil position)
  rcases g.mem_untagged w (g.mem_type position w hw) with rfl | chars
  · contradiction
  · exact absurd ((isWord_iff.mp chars).2 ' ' space) (by decide)

/-- The canonical text puts a space between the words and symbols. -/
theorem toList_rawType :
    (g.declaration position).rawType.toList = List.intercalate [' '] g.spelling := by
  rw [Declaration.toList_rawType (d := g.declaration position) rfl, Declaration.map_text_lexemes,
    Declaration.words, g.typeWords_declaration position, List.append_assoc]
  change List.intercalate [' '] ((if decide _ = true then _ else _) ++ (g.type position ++
    Declaration.tail g.modifier (String.ofList (g.name position)))) = _
  rw [g.type_append_tail position, spelling, g.kept_eq]
  simp only [decide_eq_true_eq]

private theorem noSlash_spelling : ∀ x ∈ g.spelling, '/' ∉ x := by
  have word {w : List Char} (chars : isWord w) : '/' ∉ w := fun slash =>
    absurd ((isWord_iff.mp chars).2 '/' slash) (by decide)
  intro x hx
  rw [spelling, List.mem_append, List.mem_append, List.mem_append] at hx
  rcases hx with hx | hx | hx | hx
  · obtain ⟨-, rfl⟩ := g.mem_kept_iff.mp hx
    decide
  · rcases g.mem_untagged x hx with rfl | chars
    · exact List.not_mem_nil
    · exact word chars
  · split at hx
    · contradiction
    · obtain rfl := List.mem_singleton.mp hx
      cases g.modifier with
      | plain => decide
      | pointer => decide
      | reference => decide
  · exact word (g.named x (Option.mem_toList.mp hx)).1

/-- The tokens of the canonical text. -/
theorem lexemes_rawType :
    lexemes (g.declaration position).rawType.toList =
      g.kept.map word ++
        (g.untagged.flatMap lexemes ++ (g.modifier.lexemes ++ g.name?.toList.map word)) := by
  have names : g.name?.toList.flatMap lexemes = g.name?.toList.map word := by
    cases behind : g.name? with
    | none => rfl
    | some w =>
      rw [Option.toList_some, List.flatMap_singleton, lexemes_word (g.named w behind).1]
      rfl
  have symbol : (if g.modifier = .plain then [] else [g.modifier.symbol.toList]).flatMap lexemes =
      g.modifier.lexemes := by
    cases g.modifier with
    | plain => rfl
    | pointer => decide
    | reference => decide
  have kept : g.kept.flatMap lexemes = g.kept.map word := by
    rw [g.kept_eq]
    split
    · decide
    · rfl
  rw [g.toList_rawType position, lexemes_intercalate, spelling, List.flatMap_append,
    List.flatMap_append, List.flatMap_append, names, symbol, kept]
  exact g.noSlash_spelling

/-- A phrase without `struct` that has the tokens of the canonical text, if its words may name a
type. -/
def canonical (plain : ∀ w ∈ g.untagged, isPlainWord w) : Phrase where
  qualifiers := g.kept
  words := g.untagged
  modifier := g.modifier
  name? := g.name?
  known := fun _ hw => .inl (g.mem_kept_iff.mp hw).2
  once := g.once.filter _
  full := List.ne_nil_of_length_pos (g.length_untagged ▸ List.length_pos_iff.mpr g.full)
  plain := plain
  named := g.named

private theorem tokens_canonical (plain : ∀ w ∈ g.untagged, isPlainWord w) :
    (g.canonical plain).tokens = lexemes (g.declaration position).rawType.toList := by
  rw [g.lexemes_rawType position, flatMap_lexemes plain]
  rfl

private theorem parts_canonical (plain : ∀ w ∈ g.untagged, isPlainWord w) :
    (g.canonical plain).parts position = g.parts position := by
  have noStruct : "struct".toList ∉ (g.canonical plain).qualifiers := fun struct =>
    absurd (g.mem_kept_iff.mp struct).2 (by decide)
  have const : "const".toList ∈ (g.canonical plain).qualifiers ↔
      "const".toList ∈ g.qualifiers :=
    g.mem_kept_iff.trans (and_iff_left rfl)
  have untagged : (g.canonical plain).untagged = g.untagged := by
    rw [Phrase.untagged, if_neg noStruct]
    rfl
  have ends : (g.canonical plain).EndsInName position ↔ g.EndsInName position := by
    rw [EndsInName, EndsInName, ← g.length_untagged]
    rfl
  have type : (g.canonical plain).type position = g.type position := by
    rw [Phrase.type, Phrase.type, untagged]
    exact if_congr ends rfl rfl
  have name : (g.canonical plain).name position = g.name position := by
    rw [Phrase.name, Phrase.name]
    by_cases several : g.EndsInName position
    · obtain ⟨rest, w, split, last, -⟩ := g.exists_last several.2.2
      rw [if_pos (ends.mpr several), if_pos several, last]
      change (g.untagged.getLast?).getD [] = _
      rw [split, List.getLast?_concat]
    · rw [if_neg (mt ends.mp several), if_neg several]
      rfl
  rw [parts, parts, type, name]
  simp only [const]
  rfl

private theorem length_kept_lt (struct : "struct".toList ∈ g.qualifiers) :
    g.kept.length < g.qualifiers.length :=
  List.length_filter_lt_length_iff_exists.mpr ⟨_, struct, by decide⟩

private theorem length_lexemes_rawType (struct : "struct".toList ∈ g.qualifiers) :
    (lexemes (g.declaration position).rawType.toList).length < g.tokens.length := by
  obtain ⟨tag, ws, words, untagged⟩ := g.words_of_struct struct
  have plain := g.plain
  rw [words] at plain
  obtain ⟨first, others⟩ := List.forall_mem_cons.mp plain
  have short : (lexemes (stripTag tag)).length ≤ 1 := by
    rcases stripTag_word (Declaration.isPlainWord_iff.mp first).1 with none | chars
    · rw [none]
      exact Nat.zero_le 1
    · rw [lexemes_word chars]
      exact Nat.le_refl 1
  have rest : ws.flatMap lexemes = ws.map word := flatMap_lexemes others
  have fewer := g.length_kept_lt struct
  rw [g.lexemes_rawType position, tokens, untagged, words, List.flatMap_cons, rest]
  simp only [List.length_append, List.length_map, List.length_cons]
  omega

private theorem plain_of_type (plain : ∀ w ∈ g.type position, isPlainWord w) :
    ∀ w ∈ g.untagged, isPlainWord w := by
  by_cases struct : "struct".toList ∈ g.qualifiers
  · obtain ⟨tag, ws, words, untagged⟩ := g.words_of_struct struct
    have first : stripTag tag ∈ g.type position := by
      rw [type, untagged]
      split
      · rename_i ends
        have several := ends.2.2
        rw [words] at several
        obtain ⟨v, vs, rfl⟩ := List.exists_cons_of_ne_nil
          (List.ne_nil_of_length_pos (Nat.lt_of_succ_lt_succ several))
        exact List.mem_cons_self
      · exact List.mem_cons_self
    rw [untagged]
    exact List.forall_mem_cons.mpr
      ⟨plain _ first, fun w hw => g.plain w (words ▸ List.mem_cons_of_mem _ hw)⟩
  · rw [untagged, if_neg struct]
    exact g.plain

/-- The canonical text is read as the declaration just if the words of its type may name a type. -/
theorem parts?_rawType_iff :
    parts? position (g.declaration position).rawType = some (g.parts position) ↔
      ∀ w ∈ g.untagged, isPlainWord w := by
  constructor
  · intro read
    obtain ⟨g', tokens, parts⟩ := parts?_eq_some_iff.mp read
    have same : g'.declaration position = g.declaration position := by
      rw [declaration, declaration, parts]
    have noStruct : "struct".toList ∉ g'.qualifiers := by
      intro struct
      have fewer := g'.length_lexemes_rawType position struct
      rw [same, ← tokens] at fewer
      exact Nat.lt_irrefl _ fewer
    have type : g.type position = g'.type position := by
      rw [← g.typeWords_declaration, ← g'.typeWords_declaration, same]
    have plain : ∀ w ∈ g.type position, isPlainWord w := by
      intro w hw
      have own := g'.mem_type position w (type ▸ hw)
      rw [untagged, if_neg noStruct] at own
      exact g'.plain w own
    exact g.plain_of_type position plain
  · intro plain
    exact parts?_eq_some_iff.mpr
      ⟨g.canonical plain, g.tokens_canonical position plain, g.parts_canonical position plain⟩

end Phrase

def isTypeQualifier (t : Token) : Bool := t.text = "const".toList || t.text = "struct".toList

/-- The tag of a fragment that begins like the name of a structure: the word behind the qualifiers,
if `struct` is one of these. -/
def structTag? (ts : List Token) : Option (List Char) :=
  if ((ts.takeWhile isTypeQualifier).map Token.text).contains "struct".toList then
    (ts.dropWhile isTypeQualifier).head?.map Token.text
  else none

private theorem Phrase.structTag?_tokens (g : Phrase) :
    structTag? g.tokens =
      if "struct".toList ∈ g.qualifiers then g.words.head? else none := by
  obtain ⟨w, ws, words, plain⟩ := g.exists_first
  obtain ⟨-, const, struct⟩ := Declaration.isPlainWord_iff.mp plain
  have qualifiers : ∀ t ∈ g.qualifiers.map word, isTypeQualifier t := by
    intro t ht
    obtain ⟨q, hq, rfl⟩ := List.mem_map.mp ht
    rcases g.known q hq with rfl | rfl
    · decide
    · decide
  have stop : ¬ isTypeQualifier (word w) := by
    intro qualifier
    rcases (Bool.or_eq_true _ _).mp qualifier with own | own
    · exact const (of_decide_eq_true own)
    · exact struct (of_decide_eq_true own)
  have texts : (g.qualifiers.map word).map Token.text = g.qualifiers := by
    rw [List.map_map]
    exact List.map_id _
  rw [structTag?, tokens, words, List.takeWhile_append_of_pos qualifiers,
    List.dropWhile_append_of_pos qualifiers, List.map_cons, List.cons_append,
    List.takeWhile_cons_of_neg stop, List.dropWhile_cons_of_neg stop, List.append_nil, texts]
  exact if_congr List.contains_iff_mem rfl rfl

/-- Without its underscore a tag may name a type, but for three. -/
theorem isPlainWord_stripTag_iff {tag : List Char} (plain : isPlainWord tag) :
    isPlainWord (stripTag tag) ↔ tag ∉ ["_".toList, "_const".toList, "_struct".toList] := by
  obtain ⟨chars, const, struct⟩ := Declaration.isPlainWord_iff.mp plain
  obtain ⟨full, chars⟩ := isWord_iff.mp chars
  obtain ⟨c, s, rfl⟩ := List.exists_cons_of_ne_nil full
  by_cases tagged : c = '_'
  · subst tagged
    have chars := (List.forall_mem_cons.mp chars).2
    have names : '_' :: s ∉ ["_".toList, "_const".toList, "_struct".toList] ↔
        s ≠ [] ∧ s ≠ "const".toList ∧ s ≠ "struct".toList := by
      simp
    rw [names, ← and_iff_left chars (a := s ≠ []), and_assoc]
    change isPlainWord s ↔ _
    rw [Declaration.isPlainWord_iff, isWord_iff, and_assoc]
  · rw [stripTag_cons_of_ne tagged]
    refine iff_of_true plain ?_
    simp [tagged]

/-- The words of a type may name a type unless the tag of a structure loses all that it says. -/
theorem Phrase.plain_untagged_iff (g : Phrase) :
    (∀ w ∈ g.untagged, isPlainWord w) ↔
      ∀ tag ∈ structTag? g.tokens, tag ∉ ["_".toList, "_const".toList, "_struct".toList] := by
  rw [g.structTag?_tokens]
  by_cases struct : "struct".toList ∈ g.qualifiers
  · obtain ⟨tag, ws, words, untagged⟩ := g.words_of_struct struct
    have plain := g.plain
    rw [words] at plain
    obtain ⟨first, others⟩ := List.forall_mem_cons.mp plain
    rw [if_pos struct, words, untagged, List.forall_mem_cons, isPlainWord_stripTag_iff first]
    simp only [List.head?_cons, Option.mem_some_iff, forall_eq']
    exact and_iff_left others
  · rw [if_neg struct, untagged, if_neg struct]
    exact iff_of_true g.plain (by simp)

private theorem Phrase.base_ne_empty {g : Phrase} {position : Position}
    (plain : ∀ w ∈ g.untagged, isPlainWord w) : (g.parts position).base ≠ "" := by
  obtain ⟨w, ws, type⟩ := List.exists_cons_of_ne_nil (g.type_ne_nil position)
  have first := plain w (g.mem_type position w (type ▸ List.mem_cons_self))
  have full : w ≠ [] := (isWord_iff.mp (Declaration.isPlainWord_iff.mp first).1).1
  rw [parts, type, intercalate_cons]
  simp [full]

/-- A declaration has a base type and is read from its canonical text again, just if its fragment
does not name a structure `_`, `_const` or `_struct`. -/
theorem canonical_fixed_iff {registry : Registry} {position : Position} {fragment : String}
    (resolved : (resolve registry position fragment).isResolved) :
    let d := resolve registry position fragment
    d.baseType ≠ "" ∧ resolve registry position d.rawType = d ↔
      ∀ tag ∈ structTag? (lexemes fragment.toList),
        tag ∉ ["_".toList, "_const".toList, "_struct".toList] := by
  intro d
  rw [isResolved_resolve] at resolved
  obtain ⟨p, read⟩ := Option.isSome_iff_exists.mp resolved
  obtain ⟨g, tokens, rfl⟩ := parts?_eq_some_iff.mp read
  have raw : d.rawType = (g.declaration position).rawType := by
    rw [show d = _ from resolve_of_parts read registry]
    rfl
  have base : d.baseType = (g.parts position).base := by
    rw [show d = _ from resolve_of_parts read registry]
    rfl
  rw [raw, base, resolve_eq_resolve_iff read, g.parts?_rawType_iff position, ← tokens,
    ← g.plain_untagged_iff]
  exact and_iff_right_of_imp Phrase.base_ne_empty

theorem canonical_fixed_area :
    let d := resolve .lvgl .parameter "struct _lv_area_t * /* in */ area"
    d.rawType = "lv_area_t * area" ∧ resolve .lvgl .parameter d.rawType = d := by
  have resolved : (resolve .lvgl .parameter "struct _lv_area_t * /* in */ area").isResolved := by
    decide +kernel
  exact ⟨by decide +kernel, ((canonical_fixed_iff resolved).mpr (by decide +kernel)).2⟩

/-- A structure without a name: nothing is left of the base type, and the canonical text begins with
a blank. -/
theorem bare_tag_unstable :
    let d := resolve .lvgl .parameter "struct _ * data"
    d.isResolved ∧ d.baseType = "" ∧ d.rawType = " * data" ∧
      resolve .lvgl .parameter d.rawType = .verbatim "* data" := by
  decide +kernel

end HeaderWrap.Header
