import HeaderWrap.Proofs.Lists
import HeaderWrap.Proofs.Text.Position
import Mathlib.Data.List.TakeWhile

/-! Lines and columns, counted in the bytes of a text: where a byte stands, and how its line and
column lead back to it. -/
namespace HeaderWrap.Text

def newline : UInt8 := 10

def bytes (s : List Char) : List UInt8 := s.flatMap String.utf8EncodeChar

/-- The line and the column, both counted from 1, of a byte behind some others. -/
def LineColumn.behind (front : List UInt8) : LineColumn :=
  ⟨1 + front.count newline, 1 + (front.reverse.takeWhile (· != newline)).length⟩

theorem length_bytes (s : List Char) : (bytes s).length = byteLength s := by
  rw [← size_utf8Encode, List.utf8Encode, List.size_toByteArray, bytes]

theorem toList_toByteArray (text : String) : text.toByteArray.data.toList = bytes text.toList := by
  rw [toByteArray_eq]
  exact List.toList_data_toByteArray

/-- No other character has the byte of a newline among its own. -/
theorem newline_mem_utf8EncodeChar_iff (c : Char) :
    newline ∈ String.utf8EncodeChar c ↔ c = '\n' := by
  have code : c = '\n' ↔ c.val.toNat = 10 := by
    rw [Char.ext_iff, ← UInt32.toNat_inj]
    rfl
  have high {k : Nat} (above : 127 < k) (byte : k < 256) : newline ≠ UInt8.ofNat k := by
    rw [ne_eq, ← UInt8.toNat_inj, UInt8.toNat_ofNat', Nat.mod_eq_of_lt byte]
    exact Nat.ne_of_lt (Nat.lt_trans (by decide) above)
  rw [code, String.utf8EncodeChar]
  -- a character is one byte below 128, or several bytes that are all above
  repeat' split
  · rename_i single
    rw [List.mem_singleton, ← UInt8.toNat_inj, UInt8.toNat_ofNat', Nat.mod_eq_of_lt (by omega)]
    exact eq_comm
  all_goals
    refine iff_of_false ?_ (by omega)
    simp only [List.mem_cons, List.not_mem_nil, or_false, not_or]
    repeat' apply And.intro
    all_goals exact high (by omega) (by omega)

private theorem lineStart_zero (s : List Char) : lineStart s 0 = 0 := by
  cases s <;> rfl

/-- A line begins behind the newline that ends the line before. -/
theorem lineStart_newline {s : List Char} {front rest : List UInt8}
    (split : bytes s = front ++ newline :: rest) :
    lineStart s (front.count newline + 1) = front.length + 1 := by
  induction s generalizing front with
  | nil => simp [bytes] at split
  | cons c s ih =>
    rw [bytes, List.flatMap_cons, ← bytes] at split
    rw [lineStart]
    by_cases ends : c = '\n'
    · have single : String.utf8EncodeChar '\n' = [newline] := by decide
      rw [ends, single, List.singleton_append] at split
      rw [ends, if_pos rfl]
      cases front with
      | nil =>
        rw [List.count_nil, lineStart_zero]
        rfl
      | cons b front =>
        rw [List.cons_append] at split
        obtain ⟨rfl, tail⟩ := List.cons.inj split
        rw [List.count_cons_self, ih tail, List.length_cons, Nat.add_comm]
        rfl
    · have apart : newline ∉ String.utf8EncodeChar c := by rwa [newline_mem_utf8EncodeChar_iff]
      have within : String.utf8EncodeChar c <+: front :=
        prefix_of_not_mem apart ⟨bytes s, split⟩
      obtain ⟨front, rfl⟩ := within
      rw [List.append_assoc, List.append_cancel_left_eq] at split
      rw [List.count_append, List.count_eq_zero_of_not_mem apart, if_neg ends, Nat.zero_add, ih split,
        List.length_append, String.length_utf8EncodeChar, Nat.add_assoc]

section
variable {front rest run : List UInt8}

private theorem ne_newline_of_mem_reverse (apart : newline ∉ run) :
    ∀ b ∈ run.reverse, (b != newline) = true := by
  intro b hb
  rw [bne_iff_ne]
  rintro rfl
  exact apart (List.mem_reverse.mp hb)

private theorem behind_first (apart : newline ∉ run) : LineColumn.behind run = ⟨1, 1 + run.length⟩ := by
  rw [LineColumn.behind, List.count_eq_zero_of_not_mem apart,
    List.takeWhile_eq_self_iff.mpr (ne_newline_of_mem_reverse apart), List.length_reverse]

private theorem behind_newline (apart : newline ∉ run) (lines : List UInt8) :
    LineColumn.behind (lines ++ newline :: run) =
      ⟨1 + (lines.count newline + 1), 1 + run.length⟩ := by
  have column : (lines ++ newline :: run).reverse.takeWhile (· != newline) = run.reverse := by
    rw [List.reverse_append, List.reverse_cons, List.append_assoc,
      List.takeWhile_append_of_pos (ne_newline_of_mem_reverse apart), List.singleton_append,
      List.takeWhile_cons_of_neg (by simp), List.append_nil]
  rw [LineColumn.behind, column, List.count_append, List.count_cons_self,
    List.count_eq_zero_of_not_mem apart, List.length_reverse]

private theorem exists_last_newline (found : newline ∈ front) :
    ∃ lines run, front = lines ++ newline :: run ∧ newline ∉ run := by
  obtain ⟨run, lines, split, apart⟩ := List.eq_append_cons_of_mem (List.mem_reverse.mpr found)
  refine ⟨lines.reverse, run.reverse, ?_, mt List.mem_reverse.mp apart⟩
  rw [← List.reverse_reverse front, split]
  simp

private theorem offset?_eq_some {s : List Char} {line column offset : Nat}
    (place : lineStart s line + column = offset) (small : offset < UInt64.size)
    (inside : offset < byteLength s) :
    LineColumn.offset? s ⟨1 + line, 1 + column⟩ = some offset := by
  have first : 1 + line ≠ 0 := by omega
  rw [LineColumn.offset?, if_neg first]
  simp only [Nat.add_sub_cancel_left]
  rw [← UInt64.ofNat_add, place, UInt64.toNat_ofNat_of_lt' small, if_pos inside]

/-- The line and the column of a byte lead back to it. -/
theorem offset?_behind {s : List Char} (split : bytes s = front ++ rest) (more : rest ≠ [])
    (small : front.length < UInt64.size) :
    (LineColumn.behind front).offset? s = some front.length := by
  have inside : front.length < byteLength s := by
    have total := congrArg List.length split
    have full := List.length_pos_iff.mpr more
    rw [length_bytes, List.length_append] at total
    omega
  by_cases found : newline ∈ front
  · obtain ⟨lines, run, rfl, apart⟩ := exists_last_newline found
    rw [List.append_assoc, List.cons_append] at split
    have place : lineStart s (lines.count newline + 1) + run.length =
        (lines ++ newline :: run).length := by
      rw [lineStart_newline split, List.length_append, List.length_cons]
      omega
    rw [behind_newline apart]
    exact offset?_eq_some place small inside
  · have place : lineStart s 0 + front.length = front.length := by
      rw [lineStart_zero, Nat.zero_add]
    rw [behind_first found]
    exact offset?_eq_some place small inside

end
end HeaderWrap.Text
