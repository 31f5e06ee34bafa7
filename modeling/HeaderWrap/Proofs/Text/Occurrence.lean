import Mathlib.Data.List.Perm.Basic
import Mathlib.Data.List.Sort
import HeaderWrap.Proofs.Lists
import HeaderWrap.Proofs.Text.Position
import HeaderWrap.Text.Basic

/-! Occurrences in a text, by their byte offsets. The occurrences that are found are apart, and every
other one overlaps with one found in front of it. So a name is found twice in quotes just if it stands
in quotes at two places that share nothing. -/
namespace HeaderWrap.Text

def OccursAt (pattern s : List Char) (offset : Nat) : Prop :=
  ∃ before after, s = before ++ (pattern ++ after) ∧ offset = byteLength before

section
variable {pattern : List Char}

/-- An occurrence that is found is one, behind the characters that were skipped. -/
theorem exists_of_mem_occurrencesFrom {n offset o : Nat} {s : List Char}
    (h : o ∈ occurrencesFrom pattern n offset s) :
    ∃ before after, s = before ++ (pattern ++ after) ∧ n ≤ before.length ∧
      o = offset + byteLength before := by
  fun_induction occurrencesFrom pattern n offset s with
  | case1 => contradiction
  | case2 n offset c s ih =>
    obtain ⟨before, after, rfl, behind, rfl⟩ := ih h
    exact ⟨c :: before, after, rfl, Nat.succ_le_succ behind, by rw [byteLength, Nat.add_assoc]⟩
  | case3 offset c s found ih =>
    rcases List.mem_cons.mp h with rfl | h
    · obtain ⟨after, split⟩ := List.isPrefixOf_iff_prefix.mp found
      exact ⟨[], after, split.symm, Nat.zero_le _, rfl⟩
    · obtain ⟨before, after, rfl, -, rfl⟩ := ih h
      exact ⟨c :: before, after, rfl, Nat.zero_le _, by rw [byteLength, Nat.add_assoc]⟩
  | case4 offset c s absent ih =>
    obtain ⟨before, after, rfl, -, rfl⟩ := ih h
    exact ⟨c :: before, after, rfl, Nat.zero_le _, by rw [byteLength, Nat.add_assoc]⟩

/-- Each occurrence that is found begins behind the end of the one before. -/
theorem pairwise_occurrencesFrom (pattern : List Char) (n offset : Nat) (s : List Char) :
    (occurrencesFrom pattern n offset s).Pairwise fun o o' => o + byteLength pattern ≤ o' := by
  fun_induction occurrencesFrom pattern n offset s with
  | case1 => exact .nil
  | case2 n offset c s ih => exact ih
  | case3 offset c s found ih =>
    refine List.pairwise_cons.mpr ⟨fun o ho => ?_, ih⟩
    obtain ⟨before, after, split, behind, rfl⟩ := exists_of_mem_occurrencesFrom ho
    have start := List.isPrefixOf_iff_prefix.mp found
    have short : pattern <+: c :: before := by
      refine List.prefix_of_prefix_length_le start ⟨pattern ++ after, by rw [split]; rfl⟩ ?_
      rw [List.length_cons]
      omega
    have bytes := byteLength_le short
    rw [byteLength] at bytes
    omega
  | case4 offset c s absent ih => exact ih

/-- Behind the skipped characters no occurrence is passed over, unless one that is found in front of
it reaches into it. -/
theorem exists_mem_occurrencesFrom (full : pattern ≠ []) {n offset : Nat} {s before after : List Char}
    (split : s = before ++ (pattern ++ after)) (behind : n ≤ before.length) :
    ∃ o ∈ occurrencesFrom pattern n offset s, o ≤ offset + byteLength before ∧
      offset + byteLength before < o + byteLength pattern := by
  have bytes := byteLength_pos full
  fun_induction occurrencesFrom pattern n offset s generalizing before with
  | case1 => exact absurd (List.append_eq_nil_iff.mp (List.append_eq_nil_iff.mp split.symm).2).1 full
  | case2 n offset c s ih =>
    cases before with
    | nil => exact absurd behind (Nat.not_succ_le_zero n)
    | cons d before =>
      obtain ⟨rfl, rest⟩ := List.cons.inj split
      rw [byteLength, ← Nat.add_assoc]
      exact ih rest (Nat.le_of_succ_le_succ behind)
  | case3 offset c s found ih =>
    cases before with
    | nil => exact ⟨offset, List.mem_cons_self, Nat.le_refl _, Nat.lt_add_of_pos_right bytes⟩
    | cons d before =>
      obtain ⟨rfl, rest⟩ := List.cons.inj split
      by_cases skipped : pattern.length - 1 ≤ before.length
      · obtain ⟨o, ho, reach⟩ := ih rest skipped
        rw [byteLength, ← Nat.add_assoc]
        exact ⟨o, List.mem_cons_of_mem _ ho, reach⟩
      · -- too little is skipped, so the occurrence that was found here reaches into the place
        have short : c :: before <+: pattern := by
          refine List.prefix_of_prefix_length_le ⟨pattern ++ after, split.symm⟩
            (List.isPrefixOf_iff_prefix.mp found) ?_
          rw [List.length_cons]
          omega
        have less := byteLength_lt short (by rw [List.length_cons]; omega)
        exact ⟨offset, List.mem_cons_self, Nat.le_add_right _ _, Nat.add_lt_add_left less offset⟩
  | case4 offset c s absent ih =>
    cases before with
    | nil => exact absurd (List.isPrefixOf_iff_prefix.mpr ⟨after, split.symm⟩) absent
    | cons d before =>
      obtain ⟨rfl, rest⟩ := List.cons.inj split
      rw [byteLength, ← Nat.add_assoc]
      exact ih rest (Nat.zero_le _)

private theorem apart_of_not_mem {q : Char} {other before after before' after' : List Char}
    (split : before ++ (pattern ++ after) = before' ++ (q :: other ++ after')) (fresh : q ∉ pattern)
    (order : before.length ≤ before'.length) :
    byteLength before + byteLength pattern ≤ byteLength before' := by
  obtain ⟨m, rfl⟩ : before <+: before' :=
    List.prefix_of_prefix_length_le ⟨pattern ++ after, rfl⟩ ⟨q :: other ++ after', split.symm⟩ order
  rw [List.append_assoc, List.append_cancel_left_eq] at split
  have inside : pattern <+: m := prefix_of_not_mem fresh ⟨after, split⟩
  rw [byteLength_append]
  exact Nat.add_le_add_left (byteLength_le inside) _

end

section
variable {pattern s : List Char}

private theorem occursAt_of_mem {o : Nat} (h : o ∈ occurrences pattern s) : OccursAt pattern s o := by
  obtain ⟨before, after, split, -, rfl⟩ := exists_of_mem_occurrencesFrom h
  exact ⟨before, after, split, Nat.zero_add _⟩

theorem exists_mem_occurrences (full : pattern ≠ []) {offset : Nat} (h : OccursAt pattern s offset) :
    ∃ o ∈ occurrences pattern s, o ≤ offset ∧ offset < o + byteLength pattern := by
  obtain ⟨before, after, split, rfl⟩ := h
  obtain ⟨o, ho, start, reach⟩ := exists_mem_occurrencesFrom full split (Nat.zero_le _)
  rw [Nat.zero_add] at start reach
  exact ⟨o, ho, start, reach⟩

end

/-! ### Names in quotes -/

def inQuotes (quote : Char) (name : List Char) : List Char := quote :: name ++ [quote]

theorem inQuotes_ne_nil (quote : Char) (name : List Char) : inQuotes quote name ≠ [] :=
  List.cons_ne_nil quote _

theorem byteLength_inQuotes {quote : Char} (h : quote = '"' ∨ quote = '\'') (name : List Char) :
    byteLength (inQuotes quote name) = byteLength name + 2 := by
  have one : byteLength [quote] = 1 := by rcases h with rfl | rfl <;> rfl
  rw [inQuotes, ← List.singleton_append, byteLength_append, byteLength_append, one]
  omega

/-- Two places at which a name without quotes stands in quotes of different kinds share nothing. -/
theorem quotes_apart {name s : List Char} (double : '"' ∉ name) (single : '\'' ∉ name) {o o' : Nat}
    (here : OccursAt (inQuotes '"' name) s o) (there : OccursAt (inQuotes '\'' name) s o') :
    o + (byteLength name + 2) ≤ o' ∨ o' + (byteLength name + 2) ≤ o := by
  obtain ⟨before, after, split, rfl⟩ := here
  obtain ⟨before', after', split', rfl⟩ := there
  rcases Nat.le_total before.length before'.length with order | order
  · refine .inl ?_
    have := apart_of_not_mem (split.symm.trans split') (by simp [inQuotes, single]) order
    rwa [byteLength_inQuotes (.inl rfl)] at this
  · refine .inr ?_
    have := apart_of_not_mem (split'.symm.trans split) (by simp [inQuotes, double]) order
    rwa [byteLength_inQuotes (.inr rfl)] at this

section
variable {name s : List Char}

def QuotedAt (name s : List Char) (offset : Nat) : Prop :=
  ∃ quote, (quote = '"' ∨ quote = '\'') ∧ OccursAt (inQuotes quote name) s offset

def quotesFound (name s : List Char) : List Nat :=
  List.merge (occurrences (inQuotes '"' name) s) (occurrences (inQuotes '\'' name) s) (· ≤ ·)

theorem quotedOccurrences_eq (full : name ≠ []) :
    quotedOccurrences name s = (quotesFound name s).map (· + 1) :=
  if_neg full

theorem mem_quotesFound {o : Nat} : o ∈ quotesFound name s ↔
    ∃ quote, (quote = '"' ∨ quote = '\'') ∧ o ∈ occurrences (inQuotes quote name) s := by
  simp [quotesFound, List.mem_merge]

theorem quotedAt_of_mem {o : Nat} (h : o ∈ quotesFound name s) : QuotedAt name s o := by
  obtain ⟨quote, kind, found⟩ := mem_quotesFound.mp h
  exact ⟨quote, kind, occursAt_of_mem found⟩

/-- A name is in quotes at two places that share nothing, not even a quote. -/
def QuotedTwice (name s : List Char) : Prop :=
  ∃ o o', QuotedAt name s o ∧ QuotedAt name s o' ∧ o + (byteLength name + 2) ≤ o'

/-- Of two such places, two different ones are found. -/
theorem two_quotesFound (h : QuotedTwice name s) : 2 ≤ (quotesFound name s).length := by
  obtain ⟨o, o', ⟨q, kind, here⟩, ⟨q', kind', there⟩, apart⟩ := h
  obtain ⟨r, hr, start, reach⟩ := exists_mem_occurrences (inQuotes_ne_nil q name) here
  obtain ⟨r', hr', -, reach'⟩ := exists_mem_occurrences (inQuotes_ne_nil q' name) there
  rw [byteLength_inQuotes kind] at reach
  rw [byteLength_inQuotes kind'] at reach'
  have differ : r ≠ r' := by omega
  have both : [r, r'] ⊆ quotesFound name s := by
    rintro x hx
    rcases List.mem_pair.mp hx with rfl | rfl
    · exact mem_quotesFound.mpr ⟨q, kind, hr⟩
    · exact mem_quotesFound.mpr ⟨q', kind', hr'⟩
  exact (List.subperm_of_subset (by simpa using differ) both).length_le

/-- Of a name without quotes, each place that is found begins behind the end of the one before. -/
theorem pairwise_quotesFound (double : '"' ∉ name) (single : '\'' ∉ name) :
    (quotesFound name s).Pairwise fun o o' => o + (byteLength name + 2) ≤ o' := by
  have apart {quote : Char} (kind : quote = '"' ∨ quote = '\'') :
      (occurrences (inQuotes quote name) s).Pairwise fun o o' => o + (byteLength name + 2) ≤ o' := by
    have found := pairwise_occurrencesFrom (inQuotes quote name) 0 0 s
    rwa [byteLength_inQuotes kind] at found
  have apartD := apart (.inl rfl)
  have apartS := apart (.inr rfl)
  have sorted : (quotesFound name s).Pairwise (· ≤ ·) :=
    (apartD.imp Nat.le_of_add_right_le).merge (apartS.imp Nat.le_of_add_right_le)
  -- apart in either order, so that merging does not matter
  have disjoint : (quotesFound name s).Pairwise fun o o' =>
      o + (byteLength name + 2) ≤ o' ∨ o' + (byteLength name + 2) ≤ o := by
    refine ((List.merge_perm_append _).pairwise_iff Or.symm).mpr ?_
    refine List.pairwise_append.mpr ⟨apartD.imp .inl, apartS.imp .inl, fun o ho o' ho' => ?_⟩
    exact quotes_apart double single (occursAt_of_mem ho) (occursAt_of_mem ho')
  exact (sorted.and disjoint).imp fun ⟨le, apart⟩ => by omega

theorem two_quotesFound_iff (double : '"' ∉ name) (single : '\'' ∉ name) :
    2 ≤ (quotesFound name s).length ↔ QuotedTwice name s := by
  refine ⟨fun two => ?_, two_quotesFound⟩
  have apart := pairwise_quotesFound (s := s) double single
  have quoted : ∀ o ∈ quotesFound name s, QuotedAt name s o := fun o => quotedAt_of_mem
  match found : quotesFound name s with
  | [] | [_] => simp [found] at two
  | o :: o' :: l =>
    rw [found] at apart quoted
    exact ⟨o, o', quoted o (by simp), quoted o' (by simp), List.rel_of_pairwise_cons apart (by simp)⟩

end
end HeaderWrap.Text
