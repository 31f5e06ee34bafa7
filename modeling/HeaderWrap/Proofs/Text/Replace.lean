import Mathlib.Data.List.Infix
import HeaderWrap.Text.Basic

/-! Replacing in a text: it stays as it is just where the pattern does not occur, and the
replacement stands in it where the pattern did. -/
namespace HeaderWrap.Text

section
variable {pattern replacement s : List Char}

private theorem replaceFrom_eq_drop (pattern replacement : List Char) (n : Nat) (s : List Char) :
    replaceFrom pattern replacement n s = replaceFrom pattern replacement 0 (s.drop n) := by
  induction s generalizing n with
  | nil => simp [replaceFrom]
  | cons c s ih =>
    cases n with
    | zero => rfl
    | succ n => rw [replaceFrom, ih, List.drop_succ_cons]

/-- An occurrence at the start is replaced, and what follows it by itself. -/
theorem replaceFrom_append (full : pattern ≠ []) (replacement s : List Char) :
    replaceFrom pattern replacement 0 (pattern ++ s) =
      replacement ++ replaceFrom pattern replacement 0 s := by
  obtain ⟨c, pattern, rfl⟩ := List.exists_cons_of_ne_nil full
  have start : (c :: pattern).isPrefixOf (c :: (pattern ++ s)) :=
    List.isPrefixOf_iff_prefix.mpr (List.prefix_append (c :: pattern) s)
  rw [List.cons_append, replaceFrom, if_pos start, replaceFrom_eq_drop]
  simp

private theorem replaceFrom_cons_of_absent {c : Char} (absent : ¬ pattern <+: c :: s) :
    replaceFrom pattern replacement 0 (c :: s) = c :: replaceFrom pattern replacement 0 s := by
  rw [replaceFrom, if_neg (absent ∘ List.isPrefixOf_iff_prefix.mp)]

/-- A text stays as it is where the pattern does not occur. -/
theorem replaceFrom_eq_self (absent : ¬ pattern <:+: s) :
    replaceFrom pattern replacement 0 s = s := by
  induction s with
  | nil => rfl
  | cons c s ih =>
    rw [List.infix_cons_iff, not_or] at absent
    rw [replaceFrom_cons_of_absent absent.1, ih absent.2]

private theorem length_replaceFrom_nil_le (pattern s : List Char) (n : Nat) :
    (replaceFrom pattern [] n s).length ≤ s.length := by
  induction s generalizing n with
  | nil => simp [replaceFrom]
  | cons c s ih =>
    cases n with
    | succ n => exact (ih n).trans (Nat.le_succ _)
    | zero =>
      rw [replaceFrom]
      split
      · exact (ih _).trans (Nat.le_succ _)
      · exact Nat.succ_le_succ (ih 0)

/-- Removing changes a text just if the pattern occurs in it. -/
theorem replaceFrom_nil_eq_self_iff (full : pattern ≠ []) :
    replaceFrom pattern [] 0 s = s ↔ ¬ pattern <:+: s := by
  refine ⟨fun kept occurs => ?_, replaceFrom_eq_self⟩
  induction s with
  | nil => exact full (List.eq_nil_of_infix_nil occurs)
  | cons c s ih =>
    by_cases start : pattern <+: c :: s
    · have shorter := length_replaceFrom_nil_le pattern s (pattern.length - 1)
      rw [replaceFrom, if_pos (List.isPrefixOf_iff_prefix.mpr start), List.nil_append] at kept
      rw [kept] at shorter
      exact absurd shorter (Nat.not_succ_le_self _)
    · rw [replaceFrom_cons_of_absent start] at kept
      exact ih (List.cons.inj kept).2 ((List.infix_cons_iff.mp occurs).resolve_left start)

/-- Where the pattern occurs, the replacement occurs afterwards. -/
theorem infix_replaceFrom (full : pattern ≠ []) (occurs : pattern <:+: s) :
    replacement <:+: replaceFrom pattern replacement 0 s := by
  induction s with
  | nil => exact absurd (List.eq_nil_of_infix_nil occurs) full
  | cons c s ih =>
    by_cases start : pattern <+: c :: s
    · obtain ⟨rest, hs⟩ := start
      rw [← hs, replaceFrom_append full]
      exact (List.prefix_append _ _).isInfix
    · rw [replaceFrom_cons_of_absent start]
      exact List.infix_cons (ih ((List.infix_cons_iff.mp occurs).resolve_left start))

end

theorem toList_replaceAll {pattern : String} (full : pattern ≠ "") (replacement s : String) :
    (replaceAll pattern replacement s).toList =
      replaceFrom pattern.toList replacement.toList 0 s.toList := by
  rw [replaceAll, if_neg (by simpa using full), String.toList_ofList]

/-- The pattern itself becomes its replacement. -/
theorem replaceAll_self {pattern : String} (full : pattern ≠ "") (replacement : String) :
    replaceAll pattern replacement pattern = replacement := by
  have whole := replaceFrom_append (fun h => full (String.toList_eq_nil_iff.mp h))
    replacement.toList []
  rw [List.append_nil, replaceFrom, List.append_nil] at whole
  rw [← String.toList_inj, toList_replaceAll full, whole]

end HeaderWrap.Text
