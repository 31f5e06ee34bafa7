import HeaderWrap.Text.Position

/-! Lengths in bytes, and the bytes of a part of a text. -/
namespace HeaderWrap.Text

theorem byteLength_append (a b : List Char) : byteLength (a ++ b) = byteLength a + byteLength b := by
  induction a with
  | nil => rw [List.nil_append, byteLength, Nat.zero_add]
  | cons c a ih => rw [List.cons_append, byteLength, byteLength, ih, Nat.add_assoc]

theorem byteLength_pos {s : List Char} (full : s ≠ []) : 0 < byteLength s := by
  obtain ⟨c, s, rfl⟩ := List.exists_cons_of_ne_nil full
  exact Nat.add_pos_left c.utf8Size_pos _

theorem byteLength_le {a b : List Char} (h : a <+: b) : byteLength a ≤ byteLength b := by
  obtain ⟨r, rfl⟩ := h
  rw [byteLength_append]
  exact Nat.le_add_right _ _

theorem byteLength_lt {a b : List Char} (h : a <+: b) (shorter : a.length < b.length) :
    byteLength a < byteLength b := by
  obtain ⟨r, rfl⟩ := h
  have full : r ≠ [] := by
    rintro rfl
    rw [List.append_nil] at shorter
    exact Nat.lt_irrefl _ shorter
  rw [byteLength_append]
  exact Nat.lt_add_of_pos_right (byteLength_pos full)

theorem size_utf8Encode (s : List Char) : s.utf8Encode.size = byteLength s := by
  induction s with
  | nil => rfl
  | cons c s ih =>
    rw [← List.singleton_append, List.utf8Encode_append, ByteArray.size_append, ih,
      List.utf8Encode_singleton]
    simp [byteLength]

theorem toByteArray_eq (source : String) : source.toByteArray = source.toList.utf8Encode := by
  rw [← String.toByteArray_ofList, String.ofList_toList]

section
variable {source : String} {before after : List Char}

/-- The characters in front of a place end on a boundary of UTF-8. -/
theorem isValid_of_split (split : source.toList = before ++ after) :
    String.Pos.Raw.IsValid source ⟨byteLength before⟩ := by
  refine String.Pos.Raw.isValid_iff_exists_append.mpr
    ⟨String.ofList before, String.ofList after, ?_, ?_⟩
  · rw [← String.ofList_append, ← split, String.ofList_toList]
  · rw [String.rawEndPos, String.utf8ByteSize, String.toByteArray_ofList, size_utf8Encode]

/-- The bytes of a part of a text stand behind those of what is in front of it. -/
theorem extract_of_split {mid : List Char} (split : source.toList = before ++ (mid ++ after)) :
    source.toByteArray.extract (byteLength before) (byteLength before + byteLength mid) =
      mid.utf8Encode := by
  have skip (b : ByteArray) : (before.utf8Encode ++ b).extract (byteLength before)
      (byteLength before + byteLength mid) = b.extract 0 (byteLength mid) := by
    have front := ByteArray.extract_append_size_add' (a := before.utf8Encode) (b := b) (i := 0)
      (j := byteLength mid) (size_utf8Encode before).symm
    rwa [Nat.add_zero] at front
  rw [toByteArray_eq, split, List.utf8Encode_append, List.utf8Encode_append, skip]
  exact ByteArray.extract_append_eq_left (size_utf8Encode mid).symm

end

def byteAt (s : List Char) (pos : Nat) : Nat := byteLength (s.take pos)

theorem byteAt_le (s : List Char) {i j : Nat} (order : i ≤ j) : byteAt s i ≤ byteAt s j :=
  byteLength_le (List.take_prefix_take_left order)

theorem isValid_byteAt (text : String) (pos : Nat) :
    String.Pos.Raw.IsValid text ⟨byteAt text.toList pos⟩ :=
  isValid_of_split (List.take_append_drop pos text.toList).symm

end HeaderWrap.Text
