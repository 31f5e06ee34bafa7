import Mathlib.Logic.Basic
import HeaderWrap.Naming

/-! Identifiers, and what a name that is none breaks. -/
namespace HeaderWrap.Naming

def Letter (c : Char) : Prop := 'A' ≤ c ∧ c ≤ 'Z' ∨ 'a' ≤ c ∧ c ≤ 'z'

def Digit (c : Char) : Prop := '0' ≤ c ∧ c ≤ '9'

/-- `[A-Za-z_][A-Za-z0-9_]*`, but no keyword of C++. -/
structure IsIdentifier (name : String) : Prop where
  shape : ∃ c s, name.toList = c :: s ∧ (Letter c ∨ c = '_') ∧
    ∀ d ∈ s, Letter d ∨ Digit d ∨ d = '_'
  usable : name ∉ keywords

private theorem isAlpha_iff {c : Char} : c.isAlpha = true ↔ Letter c := by
  delta Char.isAlpha Char.isUpper Char.isLower
  simp [Letter, Char.le_def]

private theorem isDigit_iff {c : Char} : c.isDigit = true ↔ Digit c := by
  delta Char.isDigit
  simp [Digit, Char.le_def]

private theorem isWordChar_iff {c : Char} : Text.isWordChar c = true ↔ Letter c ∨ Digit c ∨ c = '_' := by
  simp only [Text.isWordChar, Char.isAlphanum, Bool.or_eq_true, isAlpha_iff, isDigit_iff,
    beq_iff_eq, or_assoc]

/-- A name breaks no rule just if it is an identifier. -/
theorem fault?_eq_none_iff {name : String} : fault? name = none ↔ IsIdentifier name := by
  have keyword : isKeyword name = true ↔ name ∈ keywords := List.contains_iff_mem
  unfold fault?
  cases spelling : name.toList with
  | nil =>
    refine iff_of_false (Option.some_ne_none _) fun ⟨⟨c, s, nonempty, _⟩, _⟩ => ?_
    rw [spelling] at nonempty
    contradiction
  | cons c s =>
    have start : (c.isAlpha || c == '_') = true ↔ Letter c ∨ c = '_' := by
      rw [Bool.or_eq_true, isAlpha_iff, beq_iff_eq]
    have rest : s.all Text.isWordChar = true ↔ ∀ d ∈ s, Letter d ∨ Digit d ∨ d = '_' := by
      simp only [List.all_eq_true, isWordChar_iff]
    have identifier : IsIdentifier name ↔ (Letter c ∨ c = '_') ∧
        (∀ d ∈ s, Letter d ∨ Digit d ∨ d = '_') ∧ name ∉ keywords := by
      constructor
      · rintro ⟨⟨c', s', same, first, others⟩, usable⟩
        obtain ⟨rfl, rfl⟩ := List.cons.inj (spelling.symm.trans same)
        exact ⟨first, others, usable⟩
      · rintro ⟨first, others, usable⟩
        exact ⟨⟨c, s, spelling, first, others⟩, usable⟩
    rw [identifier, ← start, ← rest, ← keyword]
    by_cases first : (c.isAlpha || c == '_') = true
    · by_cases others : s.all Text.isWordChar = true
      · simp only [first, others, Bool.not_true, Bool.false_eq_true, if_false, true_and]
        split <;> simp_all
      · simp only [first, others]
        simp
    · simp [first]

theorem IsIdentifier.not_mem {name : String} (h : IsIdentifier name) {c : Char}
    (other : Text.isWordChar c = false) : c ∉ name.toList := by
  obtain ⟨d, s, spelling, first, rest⟩ := h.shape
  have word := mt isWordChar_iff.mpr (Bool.not_eq_true _ ▸ other)
  rw [spelling]
  intro mem
  rcases List.mem_cons.mp mem with rfl | mem
  · exact word (first.imp_right .inr)
  · exact word (rest c mem)

end HeaderWrap.Naming
