import HeaderWrap.Proofs.Template.Patching

/-! Where the sites of a text begin: at the marks that are met first from left to right. What is read
in front of a position depends on what follows only by the marks that reach over the position. -/
namespace HeaderWrap
open Text

def markWith (name : List Char) : List Char := '%' :: '%' :: name ++ ['%', '%']

theorem Site.mark_eq_markWith (s : Site) : s.mark = markWith s.name.toList := rfl

section
variable {name : List Char}

private theorem markWith_append (name r : List Char) :
    markWith name ++ r = '%' :: '%' :: (name ++ '%' :: '%' :: r) := by
  simp [markWith]

private theorem percent_not_mem_word (word : isWord name) : '%' ∉ name := fun h =>
  absurd ((isWord_iff.mp word).2 _ h) (by decide)

private theorem count_percent_markWith (word : isWord name) : (markWith name).count '%' = 4 := by
  simp [markWith, List.count_eq_zero_of_not_mem (percent_not_mem_word word)]

private theorem newline_not_mem_markWith (word : isWord name) : '\n' ∉ markWith name := by
  have inside : '\n' ∉ name := fun h => absurd ((isWord_iff.mp word).2 _ h) (by decide)
  simp [markWith, inside]

private theorem named?_markWith (word : isWord name) (r : List Char) :
    Site.named? (markWith name ++ r) = some name := by
  obtain ⟨full, chars⟩ := isWord_iff.mp word
  have stop : ¬ isWordChar '%' := by decide
  have taken : (name ++ '%' :: '%' :: r).takeWhile isWordChar = name := by
    rw [List.takeWhile_append_of_pos chars, List.takeWhile_cons_of_neg stop, List.append_nil]
  have left : (name ++ '%' :: '%' :: r).dropWhile isWordChar = '%' :: '%' :: r := by
    rw [List.dropWhile_append_of_pos chars, List.dropWhile_cons_of_neg stop]
  rw [markWith_append, Site.named?, taken, left, if_pos ⟨full, by simp⟩]

end

def BeginsSite (s : List Char) : Prop := ∃ name, isWord name ∧ markWith name <+: s

private theorem named?_eq_none_iff {s : List Char} : Site.named? s = none ↔ ¬ BeginsSite s := by
  rw [Option.eq_none_iff_forall_ne_some]
  constructor
  · rintro none ⟨name, word, r, rfl⟩
    exact none name (named?_markWith word r)
  · intro none name named
    cases s with
    | nil => contradiction
    | cons c s =>
      obtain ⟨word, split⟩ := TemplateText.named?_eq_some named
      exact none ⟨name, word, split ▸ List.prefix_append _ _⟩

namespace BeginsSite
variable {s r u : List Char}

theorem append (h : BeginsSite s) (r : List Char) : BeginsSite (s ++ r) := by
  obtain ⟨name, word, start⟩ := h
  exact ⟨name, word, start.trans (List.prefix_append s r)⟩

theorem head {c : Char} (h : BeginsSite (c :: s)) : c = '%' := by
  obtain ⟨name, -, r, split⟩ := h
  exact (List.cons.inj split).1.symm

/-- Marks lie within a line and end with a percent sign. -/
theorem cut {w : List Char} (plain : '%' ∉ w) (h : BeginsSite (u ++ (w ++ '\n' :: r))) :
    BeginsSite u := by
  obtain ⟨name, word, start⟩ := h
  refine ⟨name, word, ?_⟩
  rcases List.prefix_or_prefix_of_prefix start (List.prefix_append u _) with inside | ⟨x, mark⟩
  · exact inside
  · rw [← mark, List.prefix_append_right_inj] at start
    have line : '\n' ∉ x := fun h =>
      newline_not_mem_markWith word (mark ▸ List.mem_append_right u h)
    have within : x <+: w := prefix_of_not_mem line start
    cases last : x.getLast? with
    | none =>
      obtain rfl := List.getLast?_eq_none_iff.mp last
      exact ⟨[], mark ▸ (List.append_nil _).trans (List.append_nil u)⟩
    | some c =>
      have ends : (u ++ x).getLast? = some '%' :=
        mark ▸ List.getLast?_append_of_ne_nil ('%' :: '%' :: name) (List.cons_ne_nil '%' ['%'])
      rw [List.getLast?_append, last] at ends
      obtain rfl := Option.some.inj ends
      exact absurd (within.subset (List.mem_of_getLast? last)) plain

private theorem of_markWith {name : List Char} (word : isWord name) (full : u ≠ [])
    (h : BeginsSite (u ++ (markWith name ++ r))) : BeginsSite (u ++ markWith name) := by
  obtain ⟨name', word', start⟩ := h
  refine ⟨name', word', ?_⟩
  rw [← List.append_assoc] at start
  rcases List.prefix_or_prefix_of_prefix start (List.prefix_append _ r) with inside | reaches
  · exact inside
  · obtain ⟨c, u, rfl⟩ := List.exists_cons_of_ne_nil full
    obtain rfl : c = '%' := head ⟨name', word', start⟩
    have marks := reaches.sublist.count_le '%'
    rw [List.count_append, count_percent_markWith word, count_percent_markWith word',
      List.count_cons_self] at marks
    omega

end BeginsSite

/-- No site begins in a text when it goes on as given. -/
def Bare : List Char → List Char → Prop
  | [], _ => True
  | c :: s, r => ¬ BeginsSite (c :: s ++ r) ∧ Bare s r

theorem bare_append {s t r : List Char} : Bare (s ++ t) r ↔ Bare s (t ++ r) ∧ Bare t r := by
  induction s with
  | nil => simp [Bare]
  | cons c s ih => simp only [List.cons_append, Bare, ih, List.append_assoc, and_assoc]

theorem bare_of_plain {s : List Char} (plain : '%' ∉ s) (r : List Char) : Bare s r := by
  induction s with
  | nil => trivial
  | cons c s ih =>
    rw [List.mem_cons, not_or] at plain
    exact ⟨fun begins => plain.1 begins.head.symm, ih plain.2⟩

namespace Bare
variable {s r : List Char}

theorem imp {r' : List Char} (h : Bare s r)
    (same : ∀ u, u ≠ [] → BeginsSite (u ++ r') → BeginsSite (u ++ r)) : Bare s r' := by
  induction s with
  | nil => trivial
  | cons c s ih => exact ⟨mt (same (c :: s) (List.cons_ne_nil c s)) h.1, ih h.2⟩

theorem cut {w : List Char} (h : Bare s r) (plain : '%' ∉ w) (r' : List Char) :
    Bare s (w ++ '\n' :: r') :=
  h.imp fun _ _ begins => (begins.cut plain).append r

theorem mark {name : List Char} (word : isWord name) (h : Bare s (markWith name ++ r))
    (r' : List Char) : Bare s (markWith name ++ r') := by
  refine h.imp fun u full begins => ?_
  rw [← List.append_assoc]
  exact (begins.of_markWith word full).append r

end Bare

namespace TemplateText

def consText (s : List Char) (t : TemplateText) : TemplateText := s.foldr consChar t

theorem spell_consText (s : List Char) (t : TemplateText) :
    spell (consText s t).sites (consText s t).rest = s ++ spell t.sites t.rest := by
  induction s with
  | nil => rfl
  | cons c s ih => rw [consText, List.foldr_cons, spell_consChar, List.cons_append, ← ih, consText]

theorem tokens_consText (s : List Char) (t : TemplateText) : (consText s t).tokens = t.tokens := by
  induction s with
  | nil => rfl
  | cons c s ih => rw [consText, List.foldr_cons, tokens_consChar, ← ih, consText]

theorem consText_empty (s : List Char) : consText s ⟨[], []⟩ = ⟨[], s⟩ := by
  induction s with
  | nil => rfl
  | cons c s ih =>
    rw [consText] at ih
    rw [consText, List.foldr_cons, ih]
    rfl

private theorem consChar_injective (c : Char) : Function.Injective (consChar c) := by
  rintro ⟨sites, rest⟩ ⟨sites', rest'⟩ same
  cases sites with
  | nil =>
    cases sites' with
    | nil => simpa [consChar] using same
    | cons s ss => simp [consChar] at same
  | cons s ss =>
    cases sites' with
    | nil => simp [consChar] at same
    | cons s' ss' =>
      obtain ⟨lead, name⟩ := s
      obtain ⟨lead', name'⟩ := s'
      simpa [consChar] using same

theorem consSite_injective (name : List Char) : Function.Injective (consSite name) := by
  rintro ⟨sites, rest⟩ ⟨sites', rest'⟩ same
  simpa [consSite] using same

private theorem consSite_ne_consChar (name : List Char) (c : Char) (t t' : TemplateText) :
    consSite name t ≠ consChar c t' := by
  obtain ⟨sites, rest⟩ := t'
  cases sites with
  | nil => simp [consSite, consChar]
  | cons s ss => simp [consSite, consChar]

private theorem parseFrom_eq_drop (n : Nat) (s : List Char) : parseFrom n s = parseFrom 0 (s.drop n) := by
  induction s generalizing n with
  | nil => rw [List.drop_nil, parseFrom, parseFrom]
  | cons c s ih =>
    cases n with
    | zero => rfl
    | succ n => rw [parseFrom, ih, List.drop_succ_cons]

/-- A mark at the start of a text is read as a site. -/
theorem parseFrom_markWith {name : List Char} (word : isWord name) (r : List Char) :
    parseFrom 0 (markWith name ++ r) = consSite name (parseFrom 0 r) := by
  have named := named?_markWith word r
  have behind : ('%' :: (name ++ '%' :: '%' :: r)).drop (name.length + 3) = r := by simp
  rw [markWith_append] at named ⊢
  rw [parseFrom, named]
  change consSite name (parseFrom (name.length + 3) _) = _
  rw [parseFrom_eq_drop, behind]

private theorem parseFrom_cons_iff {c : Char} {s : List Char} {t : TemplateText} :
    parseFrom 0 (c :: s) = consChar c t ↔ ¬ BeginsSite (c :: s) ∧ parseFrom 0 s = t := by
  rw [← named?_eq_none_iff, parseFrom]
  cases Site.named? (c :: s) with
  | none => simpa using (consChar_injective c).eq_iff
  | some name => simpa using consSite_ne_consChar name c _ t

/-- A text is read as it stands just where no site begins in it. -/
theorem parseFrom_append_iff {s r : List Char} {t : TemplateText} :
    parseFrom 0 (s ++ r) = consText s t ↔ Bare s r ∧ parseFrom 0 r = t := by
  induction s with
  | nil => simp [consText, Bare]
  | cons c s ih =>
    rw [List.cons_append, consText, List.foldr_cons, parseFrom_cons_iff, ← consText, ih, Bare,
      List.cons_append, and_assoc]

/-- The sites are the ones that are met first. -/
def Scanned : List Site → List Char → Prop
  | [], rest => Bare rest []
  | s :: ss, rest =>
    isWord s.name.toList ∧ Bare s.lead (s.mark ++ spell ss rest) ∧ Scanned ss rest

theorem Scanned.consChar {c : Char} {t : TemplateText} (h : Scanned t.sites t.rest)
    (none : ¬ BeginsSite (c :: spell t.sites t.rest)) :
    Scanned (consChar c t).sites (consChar c t).rest := by
  obtain ⟨sites, rest⟩ := t
  cases sites with
  | nil =>
    refine ⟨?_, h⟩
    rw [List.append_nil]
    exact none
  | cons s ss =>
    refine ⟨h.1, ⟨?_, h.2.1⟩, h.2.2⟩
    change ¬ BeginsSite (c :: (s.lead ++ (s.mark ++ spell ss rest)))
    rw [← spell_cons]
    exact none

theorem scanned_parseFrom (n : Nat) (s : List Char) :
    Scanned (parseFrom n s).sites (parseFrom n s).rest := by
  fun_induction parseFrom n s with
  | case1 => trivial
  | case2 n c s ih => exact ih
  | case3 c s name named ih =>
    refine ⟨?_, trivial, ih⟩
    rw [String.toList_ofList]
    exact (named?_eq_some named).1
  | case4 c s none ih =>
    refine ih.consChar ?_
    rw [spell_parseFrom]
    exact named?_eq_none_iff.mp none

end TemplateText
end HeaderWrap
