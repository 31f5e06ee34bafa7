import HeaderWrap.Proofs.Template.Scanning
import HeaderWrap.Proofs.Text.Position

/-! The sites of a template text are the leftmost marks that do not overlap, and all places that reading
them leads to lie between two characters. -/
namespace HeaderWrap
open Text

def Spot.Inside (p : Spot) (pos : Nat) : Prop := p.start < pos ∧ pos < p.stop

def delimitedLength (s : List Char) : Nat := 2 + ((s.drop 2).takeWhile isWordChar).length

private theorem not_beginsSite_nil : ¬ BeginsSite [] := by
  rintro ⟨name, -, start⟩
  exact absurd (List.prefix_nil.mp start) (List.cons_ne_nil _ _)

private theorem Laid.slice_eq {source : List Char} {pos : Nat} {spots : List Spot}
    (h : Laid source pos spots) :
    ∀ p ∈ spots, p.start ≤ p.stop ∧ slice source p.start p.stop = (markOf p.name).toList := by
  induction spots generalizing pos with
  | nil => exact fun p hp => absurd hp List.not_mem_nil
  | cons q spots ih =>
    obtain ⟨-, -, proper, mark, later⟩ := h
    intro p hp
    rcases List.mem_cons.mp hp with rfl | hp
    · exact ⟨Nat.le_of_lt proper, mark⟩
    · exact ih later p hp

private theorem Bare.not_beginsSite {s r : List Char} (h : Bare s r) {i : Nat} (inside : i < s.length) :
    ¬ BeginsSite ((s ++ r).drop i) := by
  induction s generalizing i with
  | nil => exact absurd inside (Nat.not_lt_zero i)
  | cons c s ih =>
    cases i with
    | zero => exact h.1
    | succ i => exact ih h.2 (Nat.lt_of_succ_lt_succ inside)

namespace TemplateText

private theorem spotsFrom_bounds {pos : Nat} {ss : List Site} {p : Spot} (h : p ∈ spotsFrom pos ss) :
    pos ≤ p.start ∧ p.start < p.stop := by
  induction ss generalizing pos with
  | nil => contradiction
  | cons s ss ih =>
    rw [spotsFrom] at h
    rcases List.mem_cons.mp h with rfl | h
    · simp [Site.mark]
    · obtain ⟨behind, proper⟩ := ih h
      exact ⟨by omega, proper⟩

/-- Up to the end of its mark, a site begins only where its mark does. -/
theorem beginsSite_iff_of_lt {s : Site} {r : List Char} (word : isWord s.name.toList)
    (free : Bare s.lead (s.mark ++ r)) {i : Nat} :
    s.lead.length = i ↔
      BeginsSite ((s.lead ++ (s.mark ++ r)).drop i) ∧ ¬ s.lead.length < i := by
  rcases Nat.lt_trichotomy i s.lead.length with before | rfl | after
  · refine iff_of_false (by omega) fun h => ?_
    exact free.not_beginsSite before h.1
  · rw [List.drop_left]
    refine iff_of_true rfl ⟨⟨s.name.toList, word, ?_⟩, Nat.lt_irrefl _⟩
    exact s.mark_eq_markWith ▸ List.prefix_append _ r
  · exact iff_of_false (by omega) fun h => h.2 after

/-- The sites that are met first begin where a mark stands and no site reaches from the left. -/
theorem exists_spot_iff {ss : List Site} {rest : List Char} (scanned : Scanned ss rest)
    (pos i : Nat) :
    (∃ p ∈ spotsFrom pos ss, p.start = pos + i) ↔
      BeginsSite ((spell ss rest).drop i) ∧ ∀ p ∈ spotsFrom pos ss, ¬ p.Inside (pos + i) := by
  induction ss generalizing pos i with
  | nil =>
    refine iff_of_false (fun ⟨p, hp, _⟩ => List.not_mem_nil hp) fun ⟨begins, _⟩ => ?_
    by_cases inside : i < rest.length
    · have none := Bare.not_beginsSite scanned inside
      rw [List.append_nil] at none
      exact none begins
    · have past : (spell [] rest).drop i = [] := List.drop_eq_nil_of_le (by simpa [spell] using inside)
      exact not_beginsSite_nil (past ▸ begins)
  | cons s ss ih =>
    obtain ⟨word, free, later⟩ := scanned
    have behind {p : Spot} (hp : p ∈ spotsFrom (pos + s.lead.length + s.mark.length) ss) :=
      spotsFrom_bounds hp
    rw [spell_cons, spotsFrom]
    simp only [List.mem_cons, exists_eq_or_imp, forall_eq_or_imp, Spot.Inside]
    by_cases within : i < s.lead.length + s.mark.length
    · -- the later sites stand behind the position
      have others : ¬ ∃ p ∈ spotsFrom (pos + s.lead.length + s.mark.length) ss, p.start = pos + i := by
        rintro ⟨p, hp, here⟩
        have := behind hp
        omega
      have outside : ∀ p ∈ spotsFrom (pos + s.lead.length + s.mark.length) ss,
          ¬ (p.start < pos + i ∧ pos + i < p.stop) := by
        intro p hp inside
        have := behind hp
        omega
      have start : pos + s.lead.length = pos + i ↔ s.lead.length = i := Nat.add_left_cancel_iff
      have first : ¬ (pos + s.lead.length < pos + i ∧
          pos + i < pos + s.lead.length + s.mark.length) ↔ ¬ s.lead.length < i := by omega
      rw [or_iff_left others, start, first, and_iff_left outside]
      exact beginsSite_iff_of_lt word free
    · -- the first site stands in front of the position
      obtain ⟨j, rfl⟩ := Nat.exists_eq_add_of_le (Nat.le_of_not_lt within)
      have left : (s.lead ++ (s.mark ++ spell ss rest)).drop (s.lead.length + s.mark.length + j) =
          (spell ss rest).drop j := by
        rw [← List.append_assoc, ← List.length_append, ← List.drop_drop, List.drop_left]
      have place : pos + (s.lead.length + s.mark.length + j) =
          pos + s.lead.length + s.mark.length + j := by omega
      have full : 0 < s.mark.length := by simp [Site.mark]
      have other : ¬ pos + s.lead.length = pos + s.lead.length + s.mark.length + j := by omega
      have outside : ¬ (pos + s.lead.length < pos + s.lead.length + s.mark.length + j ∧
          pos + s.lead.length + s.mark.length + j < pos + s.lead.length + s.mark.length) := by omega
      rw [left, place, or_iff_right other, and_iff_right outside]
      exact ih later _ j

end TemplateText

section
variable {s : List Char}

private theorem utf8Size_wordChar {c : Char} (h : isWordChar c) : c.utf8Size = 1 := by
  rw [Char.utf8Size_eq_one_iff, UInt32.le_iff_toNat_le]
  exact Nat.le_trans (toNat_of_isWordChar h).2 (by decide)

private theorem byteLength_eq_length (single : ∀ c ∈ s, c.utf8Size = 1) : byteLength s = s.length := by
  induction s with
  | nil => rfl
  | cons c s ih =>
    rw [byteLength, List.length_cons, single c List.mem_cons_self,
      ih fun x hx => single x (List.mem_cons_of_mem c hx), Nat.add_comm]

private theorem byteAt_delimited {pos n : Nat} (delimiter : ['%', '%'] <+: s.drop pos)
    (within : n ≤ delimitedLength (s.drop pos)) : byteAt s (pos + n) = byteAt s pos + n := by
  obtain ⟨r, split⟩ := delimiter
  let front := ['%', '%'] ++ r.takeWhile isWordChar
  have single : ∀ c ∈ front, c.utf8Size = 1 := by
    intro c hc
    rcases List.mem_append.mp hc with hc | hc
    · obtain rfl : c = '%' := by simpa using hc
      rfl
    · exact utf8Size_wordChar (List.mem_takeWhile_imp hc)
  have whole : s.drop pos = front ++ r.dropWhile isWordChar := by
    rw [← split, List.append_assoc, List.takeWhile_append_dropWhile]
  have inside : n ≤ front.length := by
    rw [delimitedLength, ← split] at within
    rw [List.length_append]
    exact within
  have counted : byteLength (front.take n) = (front.take n).length :=
    byteLength_eq_length fun c hc => single c (List.mem_of_mem_take hc)
  rw [List.length_take, Nat.min_eq_left inside] at counted
  rw [byteAt, byteAt, List.take_add, byteLength_append, whole,
    List.take_append_of_le_length inside, counted]

private theorem extract_byteAt (text : String) {i j : Nat} (order : i ≤ j) :
    text.toByteArray.extract (byteAt text.toList i) (byteAt text.toList j) =
      (slice text.toList i j).utf8Encode := by
  have upTo : text.toList.take j = text.toList.take i ++ slice text.toList i j := by
    have cut := List.take_append_drop i (text.toList.take j)
    rw [List.take_take, Nat.min_eq_left order] at cut
    exact cut.symm
  have split : text.toList = text.toList.take i ++ (slice text.toList i j ++ text.toList.drop j) := by
    rw [← List.append_assoc, ← upTo, List.take_append_drop]
  have bytes := extract_of_split split
  rwa [← byteLength_append, ← upTo] at bytes

end

namespace TemplateText

/-- The sites of a template stand in order, each on the text of its mark, and its line begins where it
does in the text or behind the site before, whichever is later. A site begins at a position just if a
mark begins there that no site reaches over from the left. The bytes of a site are those of its mark,
and all places that are found by counting bytes from a delimiter, over it and the word behind it, lie
between two characters. -/
theorem spots_leftmost (text : String) :
    let s := text.toList
    let spots := (parse text).spots
    (Laid s 0 spots ∧ ∀ p ∈ spots, isWord p.name.toList) ∧
    (∀ pos, (∃ p ∈ spots, p.start = pos) ↔
      BeginsSite (s.drop pos) ∧ ∀ p ∈ spots, ¬ p.Inside pos) ∧
    (∀ p ∈ spots, text.toByteArray.extract (byteAt s p.start) (byteAt s p.stop) =
      (markOf p.name).toByteArray) ∧
    ∀ pos, ['%', '%'] <+: s.drop pos → ∀ n ≤ delimitedLength (s.drop pos),
      byteAt s (pos + n) = byteAt s pos + n ∧ String.Pos.Raw.IsValid text ⟨byteAt s pos + n⟩ := by
  intro s spots
  have whole : spell (parse text).sites (parse text).rest = s := spell_parseFrom 0 s
  have laid : Laid s 0 spots := whole ▸ laid_spotsFrom [] (parse text).sites (parse text).rest
  refine ⟨⟨laid, fun p hp => ?_⟩, fun pos => ?_, fun p hp => ?_, fun pos delimiter n within => ?_⟩
  · have names : spots.map Spot.name = (parse text).tokens := map_name_spotsFrom 0 _
    exact isWord_token 0 s p.name (names ▸ List.mem_map_of_mem hp)
  · have here := exists_spot_iff (scanned_parseFrom 0 s) 0 pos
    rwa [Nat.zero_add, ← parse, whole] at here
  · obtain ⟨order, mark⟩ := laid.slice_eq p hp
    rw [extract_byteAt text order, mark, toByteArray_eq]
  · have counted := byteAt_delimited delimiter within
    exact ⟨counted, counted ▸ isValid_byteAt text (pos + n)⟩

/-- A mark that begins in a site is none, and neither is one that begins with a stray delimiter. -/
example : (parse "%%A%%B%%%C%%").spots = [⟨"A", 0, 0, 5⟩, ⟨"C", 5, 7, 12⟩] := by decide

end TemplateText
end HeaderWrap
