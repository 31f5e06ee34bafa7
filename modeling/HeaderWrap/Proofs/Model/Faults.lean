import HeaderWrap.Model.Reading
import HeaderWrap.Proofs.Text.Lines

/-! Places of faults in models that are given as JSON. -/
namespace HeaderWrap.Model
open Text

private theorem offset?_lt {s : List Char} {place : LineColumn} {offset : Nat}
    (h : place.offset? s = some offset) : offset < byteLength s := by
  simp only [LineColumn.offset?, Option.ite_none_left_eq_some, Option.ite_none_right_eq_some,
    Option.some.injEq] at h
  obtain ⟨-, inside, rfl⟩ := h
  exact inside

private theorem faultSpan?_inside {s : List Char} {offset : Nat} {span : Span}
    (h : faultSpan? s offset = some span) : span.length = 1 ∧ span.stop ≤ byteLength s := by
  obtain ⟨start, found, rfl⟩ := Option.map_eq_some_iff.mp h
  exact ⟨rfl, offset?_lt found⟩

private theorem map_span_labels_json (mismatch? : Option Document.Mismatch) (span? : Option Span) :
    (Error.json mismatch? span?).labels.map Label.span = span?.toList := by
  cases span? <;> rfl

/-- A text that is no JSON model is shown by the span of its fault. -/
theorem labels_decode_json {text : String} {e : Error} (faulty : decode .json text = .error e)
    {l : Label} (hl : l ∈ e.labels) : ∃ offset, faultSpan? text.toList offset = some l.span := by
  rw [decode] at faulty
  cases read : Json.readAll (Document.Format.record Schema.model) text with
  | ok m =>
    rw [read] at faulty
    cases faulty
  | error f =>
    rw [read] at faulty
    obtain rfl := Except.error.inj faulty
    have shown := List.mem_map_of_mem (f := Label.span) hl
    rw [map_span_labels_json, Option.mem_toList] at shown
    obtain ⟨offset, -, span⟩ := Option.bind_eq_some_iff.mp shown
    exact ⟨offset, span⟩

private theorem length_toList_toByteArray (text : String) :
    text.toByteArray.data.toList.length = text.utf8ByteSize := Array.length_toList

/-- The line and the column of a byte, counted from 1 by the newlines before it and by the bytes
behind the last of them, lead back to that byte, whose offset is a number of 64 bits. No line and
column lead out of the text, also where the column wraps, so a label on a fault, which covers one
byte, lies in it. -/
theorem places_find_bytes (text : String) :
    let bytes := text.toByteArray.data.toList
    (∀ o : UInt64, o.toNat < text.utf8ByteSize →
      (LineColumn.behind (bytes.take o.toNat)).offset? text.toList = some o.toNat) ∧
    (∀ place o, LineColumn.offset? text.toList place = some o → o < text.utf8ByteSize) ∧
    ∀ e, decode .json text = .error e → ∀ l ∈ e.labels,
      l.span.length = 1 ∧ l.span.stop ≤ text.utf8ByteSize := by
  intro bytes
  have spelled : bytes = Text.bytes text.toList := toList_toByteArray text
  have size : text.utf8ByteSize = byteLength text.toList := by
    rw [← length_bytes, ← spelled, length_toList_toByteArray]
  refine ⟨?_, ?_, ?_⟩
  · intro o inside
    have split : Text.bytes text.toList = bytes.take o.toNat ++ bytes.drop o.toNat := by
      rw [List.take_append_drop, spelled]
    have short : o.toNat < bytes.length := by rwa [length_toList_toByteArray]
    have more : bytes.drop o.toNat ≠ [] := by
      rw [ne_eq, List.drop_eq_nil_iff]
      omega
    have length : (bytes.take o.toNat).length = o.toNat := by
      rw [List.length_take, Nat.min_eq_left (Nat.le_of_lt short)]
    rw [offset?_behind split more (length.symm ▸ o.toNat_lt_size), length]
  · intro place o found
    rw [size]
    exact offset?_lt found
  · intro e faulty l hl
    obtain ⟨offset, span⟩ := labels_decode_json faulty hl
    rw [size]
    exact faultSpan?_inside span

/-- A byte within a character in the second line, a column behind the end of the first, the last
column of 64 bits, which wraps to the byte in front of its line, and a colon that is missing. -/
theorem places_find_umlaut :
    let text := "\x7b\n\t\"ü\" 1\x7d"
    let bytes := text.toByteArray.data.toList
    5 < text.utf8ByteSize ∧ LineColumn.behind (bytes.take 5) = ⟨2, 4⟩ ∧
    LineColumn.offset? text.toList ⟨2, 4⟩ = some 5 ∧
    LineColumn.offset? text.toList ⟨1, 9⟩ = some 8 ∧ 8 < text.utf8ByteSize ∧
    LineColumn.offset? text.toList ⟨2, 18446744073709551615⟩ = some 0 ∧ 0 < text.utf8ByteSize ∧
    decode .json text = .error (.json none (some ⟨8, 1⟩)) ∧
    Span.stop ⟨8, 1⟩ ≤ text.utf8ByteSize := by
  intro text bytes
  obtain ⟨find, bound, labels⟩ := places_find_bytes text
  have inside : 5 < text.utf8ByteSize := by decide +kernel
  have place : LineColumn.behind (bytes.take 5) = ⟨2, 4⟩ := by decide +kernel
  have faulty : decode .json text = .error (.json none (some ⟨8, 1⟩)) := by
    have shown : (match decode .json text with
        | .error e => some e
        | .ok _ => none) = some (.json none (some ⟨8, 1⟩)) := by decide +kernel
    split at shown
    · next e read => rw [read, Option.some.inj shown]
    · contradiction
  have further : LineColumn.offset? text.toList ⟨1, 9⟩ = some 8 := by decide +kernel
  have wrapped : LineColumn.offset? text.toList ⟨2, 18446744073709551615⟩ = some 0 := by
    decide +kernel
  have found := find 5 inside
  rw [show (5 : UInt64).toNat = 5 from rfl, place] at found
  exact ⟨inside, place, found, further, bound _ _ further, wrapped, bound _ _ wrapped, faulty,
    (labels _ faulty _ List.mem_cons_self).2⟩

end HeaderWrap.Model
