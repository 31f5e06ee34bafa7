import HeaderWrap.Proofs.Header.Canonical

/-! The grammar of declarations: a fragment is read just if its tokens are those of a phrase, and the
phrase says what it is read as. -/
namespace HeaderWrap
open Text

namespace Header

/-- A sequence that the grammar allows: `const` and `struct` in any order, each at most once, the
words of a type, and at most one symbol, behind which a name may stand. -/
structure Phrase where
  qualifiers : List (List Char)
  words : List (List Char)
  modifier : Modifier
  /-- The word behind the symbol. -/
  name? : Option (List Char)
  known : ∀ w ∈ qualifiers, w = "const".toList ∨ w = "struct".toList
  once : qualifiers.Nodup
  full : words ≠ []
  plain : ∀ w ∈ words, isPlainWord w
  named : ∀ w ∈ name?, isWord w ∧ modifier ≠ .plain

namespace Phrase

def tokens (g : Phrase) : List Token :=
  g.qualifiers.map word ++ (g.words.map word ++ (g.modifier.lexemes ++ g.name?.toList.map word))

def untagged (g : Phrase) : List (List Char) :=
  if "struct".toList ∈ g.qualifiers then g.words.modifyHead stripTag else g.words

/-- Without a symbol the last of several words of a parameter is its name. -/
def EndsInName (g : Phrase) (position : Position) : Prop :=
  g.modifier = .plain ∧ position = .parameter ∧ 1 < g.words.length

instance (g : Phrase) (position : Position) : Decidable (g.EndsInName position) :=
  inferInstanceAs (Decidable (_ ∧ _))

def written (g : Phrase) (position : Position) : List (List Char) :=
  if g.EndsInName position then g.words.dropLast else g.words

def type (g : Phrase) (position : Position) : List (List Char) :=
  if g.EndsInName position then g.untagged.dropLast else g.untagged

def name (g : Phrase) (position : Position) : List Char :=
  (if g.EndsInName position then g.words.getLast? else g.name?).getD []

def parts (g : Phrase) (position : Position) : Parts where
  isConst := decide ("const".toList ∈ g.qualifiers)
  base := String.ofList (List.intercalate [' '] (g.type position))
  modifier := g.modifier
  name := String.ofList (g.name position)

end Phrase

structure IsLexeme (t : Token) : Prop where
  bare : t.skipped = []
  word : t.kind = .word → isWord t.text
  sign : t.kind ≠ .word → ∃ c, t.text = [c] ∧ IsSign c t.kind

namespace IsLexeme
variable {t : Token}

private theorem eq_word (h : IsLexeme t) (kind : t.kind = .word) : t = Header.word t.text := by
  obtain ⟨skipped, _, text⟩ := t
  obtain rfl : skipped = [] := h.bare
  obtain rfl : _ = TokenKind.word := kind
  rfl

private theorem kind_eq_word (h : IsLexeme t) (long : 1 < t.text.length) : t.kind = .word := by
  by_contra other
  obtain ⟨c, text, -⟩ := h.sign other
  simp [text] at long

private theorem eq_word_of_text {w : List Char} (h : IsLexeme t) (text : t.text = w)
    (long : 1 < w.length) : t = Header.word w := by
  subst text
  exact h.eq_word (h.kind_eq_word long)

private theorem eq_sign {c : Char} (h : IsLexeme t) (kind : t.kind = Token.kindOf c)
    (known : Token.kindOf c ≠ .other) (plain : Token.kindOf c ≠ .word) :
    t = ⟨[], Token.kindOf c, [c]⟩ := by
  obtain ⟨d, text, sign⟩ := h.sign (kind ▸ plain)
  obtain rfl := eq_of_kindOf known (sign.own.trans kind)
  obtain ⟨skipped, _, _⟩ := t
  obtain rfl : skipped = [] := h.bare
  obtain rfl : _ = Token.kindOf d := kind
  obtain rfl : _ = [d] := text
  rfl

end IsLexeme

/-- The tokens of a fragment are words and signs. -/
theorem isLexeme_of_mem_lexemes {s : List Char} : ∀ t ∈ lexemes s, IsLexeme t := by
  intro t ht
  obtain ⟨u, hu, rfl⟩ := List.mem_map.mp ht
  obtain ⟨left, right, stands, -⟩ := (cut_tokens .code s).stands (List.mem_of_mem_filter hu)
  exact ⟨rfl, fun kind => (stands.word kind).word, stands.sign⟩

structure Qualify (isConst isStruct : Bool) (qs : List (List Char)) : Prop where
  known : ∀ w ∈ qs, w = "const".toList ∨ w = "struct".toList
  once : qs.Nodup
  const : isConst → "const".toList ∉ qs
  struct : isStruct → "struct".toList ∉ qs

theorem Qualify.nil (isConst isStruct : Bool) : Qualify isConst isStruct [] :=
  ⟨by simp, List.nodup_nil, by simp, by simp⟩

private theorem qualify_const_iff {a b : Bool} {qs : List (List Char)} :
    Qualify a b ("const".toList :: qs) ↔ a = false ∧ Qualify true b qs := by
  constructor
  · rintro ⟨known, once, const, struct⟩
    obtain ⟨fresh, once⟩ := List.nodup_cons.mp once
    refine ⟨Bool.eq_false_iff.mpr fun before => const before List.mem_cons_self,
      fun w hw => known w (List.mem_cons_of_mem _ hw), once, fun _ => fresh, fun before later => ?_⟩
    exact struct before (List.mem_cons_of_mem _ later)
  · rintro ⟨rfl, known, once, const, struct⟩
    refine ⟨List.forall_mem_cons.mpr ⟨.inl rfl, known⟩, List.nodup_cons.mpr ⟨const rfl, once⟩,
      by simp, fun before => ?_⟩
    exact List.not_mem_cons_of_ne_of_not_mem (by decide) (struct before)

private theorem qualify_struct_iff {a b : Bool} {qs : List (List Char)} :
    Qualify a b ("struct".toList :: qs) ↔ b = false ∧ Qualify a true qs := by
  constructor
  · rintro ⟨known, once, const, struct⟩
    obtain ⟨fresh, once⟩ := List.nodup_cons.mp once
    refine ⟨Bool.eq_false_iff.mpr fun before => struct before List.mem_cons_self,
      fun w hw => known w (List.mem_cons_of_mem _ hw), once, fun before later => ?_, fun _ => fresh⟩
    exact const before (List.mem_cons_of_mem _ later)
  · rintro ⟨rfl, known, once, const, struct⟩
    refine ⟨List.forall_mem_cons.mpr ⟨.inr rfl, known⟩, List.nodup_cons.mpr ⟨struct rfl, once⟩,
      fun before => ?_, by simp⟩
    exact List.not_mem_cons_of_ne_of_not_mem (by decide) (const before)

private theorem readQualifiers_sound {a b isConst isStruct : Bool} {ts rest : List Token}
    (lexeme : ∀ t ∈ ts, IsLexeme t)
    (read : readQualifiers a b ts = some (isConst, isStruct, rest)) :
    ∃ qs, Qualify a b qs ∧ ts = qs.map word ++ rest := by
  fun_induction readQualifiers a b ts with
  | case1 =>
    obtain ⟨-, -, rfl⟩ : _ ∧ _ ∧ [] = rest := by simpa using read
    exact ⟨[], .nil _ _, rfl⟩
  | case2 => contradiction
  | case3 a b t ts text fresh ih =>
    obtain rfl : a = false := by simpa using fresh
    obtain ⟨ht, lexeme⟩ := List.forall_mem_cons.mp lexeme
    obtain ⟨qs, qualify, rfl⟩ := ih lexeme read
    exact ⟨_, qualify_const_iff.mpr ⟨rfl, qualify⟩, by rw [ht.eq_word_of_text text (by decide)]; rfl⟩
  | case4 => contradiction
  | case5 a b t ts other text fresh ih =>
    obtain rfl : b = false := by simpa using fresh
    obtain ⟨ht, lexeme⟩ := List.forall_mem_cons.mp lexeme
    obtain ⟨qs, qualify, rfl⟩ := ih lexeme read
    exact ⟨_, qualify_struct_iff.mpr ⟨rfl, qualify⟩, by rw [ht.eq_word_of_text text (by decide)]; rfl⟩
  | case6 a b t ts =>
    obtain ⟨-, -, rfl⟩ : _ ∧ _ ∧ t :: ts = rest := by simpa using read
    exact ⟨[], .nil _ _, rfl⟩

private theorem readQualifiers_complete {a b : Bool} {qs : List (List Char)} (qualify : Qualify a b qs)
    {w : List Char} (plain : isPlainWord w) (ts : List Token) :
    readQualifiers a b (qs.map word ++ word w :: ts) =
      some (a || decide ("const".toList ∈ qs), b || decide ("struct".toList ∈ qs),
        word w :: ts) := by
  induction qs generalizing a b with
  | nil => simpa using Declaration.readQualifiers_word plain ts
  | cons q qs ih =>
    rw [List.map_cons, List.cons_append, readQualifiers]
    rcases qualify.known q List.mem_cons_self with rfl | rfl
    · obtain ⟨rfl, others⟩ := qualify_const_iff.mp qualify
      rw [if_pos (by rfl), if_neg Bool.false_ne_true, ih others]
      simp
    · obtain ⟨rfl, others⟩ := qualify_struct_iff.mp qualify
      rw [if_neg (by decide), if_pos (by rfl), if_neg Bool.false_ne_true, ih others]
      simp

private theorem readModifier_sound {modifier : Modifier} {ts rest : List Token}
    (lexeme : ∀ t ∈ ts, IsLexeme t) (read : readModifier ts = some (modifier, rest)) :
    ts = modifier.lexemes ++ rest := by
  cases ts with
  | nil =>
    obtain ⟨rfl, rfl⟩ := Prod.mk.inj (Option.some.inj read)
    rfl
  | cons t ts =>
    have ht := lexeme t List.mem_cons_self
    rw [readModifier] at read
    split at read
    · rename_i symbol
      split at read
      · contradiction
      · obtain ⟨rfl, rfl⟩ := Prod.mk.inj (Option.some.inj read)
        split
        · rename_i star
          rw [ht.eq_sign (c := '*') star (by decide) (by decide)]
          rfl
        · rename_i other
          have amp : t.kind = .amp := by simpa [isModifier, other] using symbol
          rw [ht.eq_sign (c := '&') amp (by decide) (by decide)]
          rfl
    · obtain ⟨rfl, rfl⟩ := Prod.mk.inj (Option.some.inj read)
      rfl

private theorem readName_sound {position : Position} {words type : List (List Char)} {modifier : Modifier}
    {name : List Char} {ts : List Token} (lexeme : ∀ t ∈ ts, IsLexeme t)
    (read : readName position words modifier ts = some (type, name)) :
    ∃ name? : Option (List Char), ts = name?.toList.map word ∧
      ∀ w ∈ name?, isWord w ∧ modifier ≠ .plain := by
  match ts with
  | [] => exact ⟨none, rfl, by simp⟩
  | [t] =>
    have ht := lexeme t List.mem_cons_self
    rw [readName] at read
    split at read
    · rename_i named
      refine ⟨some t.text, by rw [ht.eq_word named.2]; rfl, fun w hw => ?_⟩
      obtain rfl := Option.some.inj hw
      exact ⟨ht.word named.2, named.1⟩
    · contradiction
  | _ :: _ :: _ => contradiction

private theorem takeWhile_word {ts : List Token} (lexeme : ∀ t ∈ ts, IsLexeme t) :
    ts.takeWhile (·.kind = .word) = ((ts.takeWhile (·.kind = .word)).map Token.text).map word ∧
      ∀ w ∈ (ts.takeWhile (·.kind = .word)).map Token.text, isWord w := by
  have taken : ∀ t ∈ ts.takeWhile (·.kind = .word), IsLexeme t ∧ t.kind = .word := fun t ht =>
    ⟨lexeme t ((List.takeWhile_prefix _).subset ht), by simpa using List.mem_takeWhile_imp ht⟩
  generalize ts.takeWhile (·.kind = .word) = taken at taken
  constructor
  · rw [List.map_map]
    symm
    refine (List.map_congr_left fun t ht => ?_).trans (List.map_id _)
    exact ((taken t ht).1.eq_word (taken t ht).2).symm
  · intro w hw
    obtain ⟨t, ht, rfl⟩ := List.mem_map.mp hw
    exact (taken t ht).1.word (taken t ht).2

private theorem plain_of_guard {words : List (List Char)} {u : Unit}
    (guarded : guard (words ≠ [] ∧ !words.contains "const".toList ∧
      !words.contains "struct".toList) = some u) (word : ∀ w ∈ words, isWord w) :
    words ≠ [] ∧ ∀ w ∈ words, isPlainWord w := by
  have allowed : words ≠ [] ∧ !words.contains "const".toList ∧ !words.contains "struct".toList := by
    by_contra refused
    have none : (guard _ : Option Unit) = none := if_neg refused
    rw [none] at guarded
    contradiction
  obtain ⟨full, const, struct⟩ := allowed
  have const : "const".toList ∉ words := by simpa using const
  have struct : "struct".toList ∉ words := by simpa using struct
  exact ⟨full, fun w hw => Declaration.isPlainWord_iff.mpr
    ⟨word w hw, fun own => const (own ▸ hw), fun own => struct (own ▸ hw)⟩⟩

/-- What is read are the tokens of a phrase. -/
theorem exists_phrase {position : Position} {ts : List Token} {p : Parts}
    (lexeme : ∀ t ∈ ts, IsLexeme t) (read : partsOf? position ts = some p) :
    ∃ g : Phrase, g.tokens = ts := by
  obtain ⟨⟨isConst, isStruct, rest⟩, qualified, read⟩ := Option.bind_eq_some_iff.mp read
  obtain ⟨_, guarded, read⟩ := Option.bind_eq_some_iff.mp read
  obtain ⟨⟨modifier, behind⟩, symbol, read⟩ := Option.bind_eq_some_iff.mp read
  obtain ⟨⟨type, name⟩, named, -⟩ := Option.bind_eq_some_iff.mp read
  obtain ⟨qs, qualify, rfl⟩ := readQualifiers_sound lexeme qualified
  have lexeme : ∀ t ∈ rest, IsLexeme t := fun t ht => lexeme t (List.mem_append_right _ ht)
  obtain ⟨words, word⟩ := takeWhile_word lexeme
  obtain ⟨full, plain⟩ := plain_of_guard guarded word
  have after := readModifier_sound
    (fun t ht => lexeme t ((List.dropWhile_suffix _).subset ht)) symbol
  have inner : ∀ t ∈ behind, IsLexeme t := fun t ht =>
    lexeme t ((List.dropWhile_suffix _).subset (after ▸ List.mem_append_right _ ht))
  obtain ⟨name?, rfl, hname⟩ := readName_sound inner named
  refine ⟨⟨qs, _, modifier, name?, qualify.known, qualify.once, full, plain, hname⟩, ?_⟩
  rw [Phrase.tokens, ← words, ← after, List.takeWhile_append_dropWhile]

theorem stripTag_cons_of_ne {c : Char} (h : c ≠ '_') (s : List Char) :
    stripTag (c :: s) = c :: s := by
  rw [stripTag]
  exact fun _ same => h (List.cons.inj same).1

private theorem stripTag_intercalate {w : List Char} (full : w ≠ []) (ws : List (List Char)) :
    stripTag (List.intercalate [' '] (w :: ws)) = List.intercalate [' '] (stripTag w :: ws) := by
  obtain ⟨c, w, rfl⟩ := List.exists_cons_of_ne_nil full
  rw [intercalate_cons, intercalate_cons, List.cons_append]
  by_cases tagged : c = '_'
  · subst tagged
    rfl
  · rw [stripTag_cons_of_ne tagged, stripTag_cons_of_ne tagged, List.cons_append]

namespace Phrase
variable (g : Phrase) (position : Position)

private theorem qualify : Qualify false false g.qualifiers :=
  ⟨g.known, g.once, by simp, by simp⟩

theorem exists_first : ∃ w ws, g.words = w :: ws ∧ isPlainWord w := by
  obtain ⟨w, ws, words⟩ := List.exists_cons_of_ne_nil g.full
  exact ⟨w, ws, words, g.plain w (words ▸ List.mem_cons_self)⟩

private theorem intercalate_type :
    (if "struct".toList ∈ g.qualifiers then stripTag (List.intercalate [' '] (g.written position))
      else List.intercalate [' '] (g.written position)) =
        List.intercalate [' '] (g.type position) := by
  obtain ⟨w, ws, words, plain⟩ := g.exists_first
  have full : w ≠ [] := (isWord_iff.mp (Declaration.isPlainWord_iff.mp plain).1).1
  rw [written, type, untagged, words]
  split
  · split
    · rename_i ends
      rw [EndsInName, words] at ends
      obtain ⟨v, vs, rfl⟩ := List.exists_cons_of_ne_nil
        (List.ne_nil_of_length_pos (Nat.lt_of_succ_lt_succ ends.2.2))
      exact stripTag_intercalate full _
    · exact stripTag_intercalate full ws
  · rfl

private theorem readName_tokens : readName position g.words g.modifier (g.name?.toList.map word) =
    some (g.written position, g.name position) := by
  rw [written, name]
  cases behind : g.name? with
  | none =>
    rw [Option.toList_none, List.map_nil, readName]
    by_cases ends : g.EndsInName position
    · rw [if_pos ends, if_pos ends]
      exact if_pos ends
    · rw [if_neg ends, if_neg ends]
      exact if_neg ends
  | some w =>
    have symbol := (g.named w behind).2
    have apart : ¬ g.EndsInName position := fun ends => symbol ends.1
    rw [if_neg apart, if_neg apart, Option.toList_some, List.map_singleton, readName,
      if_pos ⟨symbol, rfl⟩]
    rfl

private theorem head_name?_tokens : (g.name?.toList.map word).head?.any isModifier = false := by
  cases g.name? with
  | none => rfl
  | some w => rfl

/-- The tokens of a phrase are read as the phrase says. -/
theorem partsOf?_tokens : partsOf? position g.tokens = some (g.parts position) := by
  obtain ⟨w, ws, words, plain⟩ := g.exists_first
  have ended : g.modifier = .plain → g.name?.toList.map word = [] := by
    intro bare
    cases behind : g.name? with
    | none => rfl
    | some w => exact absurd bare (g.named w behind).2
  have qualified : readQualifiers false false g.tokens =
      some (decide ("const".toList ∈ g.qualifiers), decide ("struct".toList ∈ g.qualifiers),
        g.words.map word ++ (g.modifier.lexemes ++ g.name?.toList.map word)) := by
    rw [tokens, words, List.map_cons, List.cons_append, readQualifiers_complete g.qualify plain,
      Bool.false_or, Bool.false_or]
  rw [Declaration.partsOf?_eq qualified g.full g.plain (Modifier.kind_of_head_lexemes ended)
    (Modifier.readModifier_lexemes _ g.head_name?_tokens) (g.readName_tokens position)]
  dsimp only
  rw [parts, ← g.intercalate_type position]
  simp only [decide_eq_true_eq]

end Phrase

/-- A fragment is read just if its tokens are those of a phrase. -/
theorem parts?_eq_some_iff {position : Position} {fragment : String} {p : Parts} :
    parts? position fragment = some p ↔
      ∃ g : Phrase, g.tokens = lexemes fragment.toList ∧ g.parts position = p := by
  constructor
  · intro read
    obtain ⟨g, tokens⟩ := exists_phrase isLexeme_of_mem_lexemes read
    rw [parts?, ← tokens, g.partsOf?_tokens position] at read
    exact ⟨g, tokens, Option.some.inj read⟩
  · rintro ⟨g, tokens, rfl⟩
    rw [parts?, ← tokens, g.partsOf?_tokens position]

theorem isResolved_resolve_iff {registry : Registry} {position : Position} {fragment : String} :
    (resolve registry position fragment).isResolved ↔
      ∃ g : Phrase, g.tokens = lexemes fragment.toList := by
  rw [isResolved_resolve, Option.isSome_iff_exists]
  constructor
  · rintro ⟨p, read⟩
    obtain ⟨g, tokens, -⟩ := parts?_eq_some_iff.mp read
    exact ⟨g, tokens⟩
  · rintro ⟨g, tokens⟩
    exact ⟨g.parts position, parts?_eq_some_iff.mpr ⟨g, tokens, rfl⟩⟩

end Header
end HeaderWrap
