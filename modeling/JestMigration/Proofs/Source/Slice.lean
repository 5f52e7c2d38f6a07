/-
# `Proofs.Source.Slice` — spans as bytes

`Source.slice?` speaks of characters, edits are about bytes.  `cut` is the list
of bytes of a span, and a slice, where there is one, has exactly these bytes
(`bytes_of_slice?`).  What a text says about its first and last byte is then
read off `byte?` (`byte?_of_slice?`).  Boundaries are kept by going over a byte
that is a character of its own (`isBoundary_succ`).
-/
import JestMigration.Source.Lines
import Mathlib.Data.List.Basic
import Mathlib.Data.Nat.Bitwise

namespace JestMigration

namespace Source

/-- The bytes of a span. -/
def cut (source : Source) (span : Span) : List UInt8 :=
  (source.bytes.drop span.start).take (span.stop - span.start)

theorem getElem?_cut (source : Source) (span : Span) {i : Nat} (h : i < span.stop - span.start) :
    (source.cut span)[i]? = source.byte? (span.start + i) := by
  rw [cut, List.getElem?_take_of_lt h, List.getElem?_drop, byte?_eq_getElem?]

theorem length_cut {source : Source} {span : Span} (h : span.stop ≤ source.size) :
    (source.cut span).length = span.stop - span.start := by
  rw [cut, List.length_take, List.length_drop, length_bytes]
  omega

theorem cut_whole (source : Source) : source.cut source.whole = source.bytes := by
  rw [cut, whole, Nat.sub_zero, List.drop_zero, List.take_of_length_le]
  exact Nat.le_of_eq source.length_bytes

/-! ## Boundaries -/

theorem isBoundary_iff {source : Source} {offset : Nat} :
    source.isBoundary offset = true ↔ String.Pos.Raw.IsValid source.text ⟨offset⟩ := by
  rw [isBoundary, String.Pos.Raw.isValid_eq_true_iff]

theorem le_size_of_isBoundary {source : Source} {offset : Nat}
    (h : source.isBoundary offset = true) : offset ≤ source.size :=
  (isBoundary_iff.mp h).le_utf8ByteSize

theorem isBoundary_zero (source : Source) : source.isBoundary 0 = true :=
  isBoundary_iff.mpr String.Pos.Raw.isValid_zero

theorem isBoundary_size (source : Source) : source.isBoundary source.size = true :=
  isBoundary_iff.mpr String.Pos.Raw.isValid_rawEndPos

/-- A slice has the bytes of its span. -/
theorem bytes_of_slice? {source : Source} {span : Span} {text : String}
    (h : source.slice? span = some text) : (Source.mk text).bytes = source.cut span := by
  unfold slice? at h
  split at h
  · unfold String.fromUTF8? at h
    split at h
    · cases h
      simp only [bytes, cut, String.fromUTF8, ByteArray.data_extract, Array.toList_extract,
        List.extract]
    · exact absurd h (by simp)
  · exact absurd h (by simp)

theorem bounds_of_slice? {source : Source} {span : Span} {text : String}
    (h : source.slice? span = some text) :
    span.start ≤ span.stop ∧ source.isBoundary span.start = true ∧
      source.isBoundary span.stop = true := by
  unfold slice? at h
  split at h
  · rename_i hcond
    simp only [Bool.and_eq_true, decide_eq_true_eq] at hcond
    exact ⟨hcond.1.1, hcond.1.2, hcond.2⟩
  · exact absurd h (by simp)

/-- Between boundaries in the right order there is a slice. -/
theorem exists_slice? {source : Source} {span : Span} (hle : span.start ≤ span.stop)
    (hstart : source.isBoundary span.start = true) (hstop : source.isBoundary span.stop = true) :
    ∃ text, source.slice? span = some text := by
  have hvalid : (source.text.toByteArray.extract span.start span.stop).IsValidUTF8 := by
    have hend := le_size_of_isBoundary hstop
    exact (String.Pos.Raw.isValidUTF8_extract_iff ⟨span.start⟩ ⟨span.stop⟩ hle hend).mpr
      (.inr ⟨isBoundary_iff.mp hstart, isBoundary_iff.mp hstop⟩)
  refine ⟨String.fromUTF8 _ hvalid, ?_⟩
  simp only [slice?, hle, hstart, hstop, decide_true, Bool.and_self, if_true, String.fromUTF8?,
    dif_pos hvalid]

theorem isSome_slice?_iff {source : Source} {span : Span} : (source.slice? span).isSome ↔
    span.start ≤ span.stop ∧ source.isBoundary span.start = true ∧
      source.isBoundary span.stop = true := by
  rw [Option.isSome_iff_exists]
  constructor
  · rintro ⟨_, h⟩
    exact bounds_of_slice? h
  · rintro ⟨hle, hstart, hstop⟩
    exact exists_slice? hle hstart hstop

theorem isSome_slice?_whole (source : Source) : (source.slice? source.whole).isSome :=
  isSome_slice?_iff.mpr ⟨Nat.zero_le _, source.isBoundary_zero, source.isBoundary_size⟩

/-- A text that is not empty is that of a slice. -/
theorem slice?_of_read_ne {source : Source} {span : Span} (h : source.read span ≠ "") :
    source.slice? span = some (source.read span) := by
  unfold read at h ⊢
  cases hslice : source.slice? span with
  | none => exact absurd (by rw [hslice]; rfl) h
  | some text => rfl

/-- The bytes of a text are found in the source where the text was read. -/
theorem byte?_of_slice? {source : Source} {span : Span} {text : String}
    (h : source.slice? span = some text) {i : Nat} (hi : i < span.stop - span.start) :
    source.byte? (span.start + i) = (Source.mk text).byte? i := by
  rw [← getElem?_cut source span hi, byte?_eq_getElem?, bytes_of_slice? h]

theorem size_of_slice? {source : Source} {span : Span} {text : String}
    (h : source.slice? span = some text) : (Source.mk text).size = span.stop - span.start := by
  rw [← length_bytes, bytes_of_slice? h, length_cut (le_size_of_isBoundary (bounds_of_slice? h).2.2)]

/-- The text of an inner span is part of the text of an outer one. -/
theorem cut_of_slice? {source : Source} {outer inner : Span} {text : String}
    (h : source.slice? outer = some text) (hin : outer.contains inner = true) :
    (Source.mk text).cut ⟨inner.start - outer.start, inner.stop - outer.start⟩ = source.cut inner := by
  obtain ⟨hstart, hstop⟩ := Span.contains_iff.mp hin
  have hle := (bounds_of_slice? h).1
  simp only [cut, bytes_of_slice? h]
  rw [List.drop_take, List.drop_drop, List.take_take]
  congr 1
  · omega
  · congr 1
    omega

/-- So it stands somewhere in that text. -/
theorem exists_cut_of_slice? {source : Source} {outer inner : Span} {text part : String}
    (houter : source.slice? outer = some text) (hinner : source.slice? inner = some part)
    (hin : outer.contains inner = true) :
    ∃ i ≤ (Source.mk text).size, ∃ j ≤ (Source.mk text).size,
      (Source.mk text).cut ⟨i, j⟩ = (Source.mk part).bytes := by
  obtain ⟨hstart, hstop⟩ := Span.contains_iff.mp hin
  have hle := (bounds_of_slice? hinner).1
  have hsize := size_of_slice? houter
  refine ⟨inner.start - outer.start, by omega, inner.stop - outer.start, by omega, ?_⟩
  rw [cut_of_slice? houter hin, bytes_of_slice? hinner]

/-- A byte below 128 is a character, so a boundary before it is followed by one after it. -/
theorem isBoundary_succ {source : Source} {offset : Nat} {byte : UInt8}
    (h : source.isBoundary offset = true) (hbyte : source.byte? offset = some byte)
    (hascii : byte < 128) : source.isBoundary (offset + 1) = true := by
  rw [isBoundary_iff, String.Pos.Raw.isValid_iff_isValidUTF8_extract_zero] at h ⊢
  have hvalue : (Char.ofUInt8 byte).val = byte.toUInt32 := rfl
  have hsize : (Char.ofUInt8 byte).utf8Size = 1 := by
    have hnat : byte.toNat < 128 := hascii
    rw [Char.utf8Size_eq_one_iff, hvalue, UInt32.le_iff_toNat_le, UInt8.toNat_toUInt32]
    exact Nat.le_of_lt_succ hnat
  have hchar : (Char.ofUInt8 byte).toUInt8 = byte := by
    rw [Char.toUInt8, hvalue, UInt8.toUInt8_toUInt32]
  have hpush : source.text.toByteArray.extract 0 (offset + 1) =
      (source.text.toByteArray.extract 0 offset).push byte := by
    apply ByteArray.ext
    apply Array.ext'
    simpa [List.take_add_one, byte?] using hbyte
  refine ⟨lt_size_of_byte? hbyte, ?_⟩
  rw [hpush, ← hchar]
  exact h.2.push hsize

/-- A byte below 128 begins a character. -/
theorem isBoundary_of_byte? {source : Source} {offset : Nat} {byte : UInt8}
    (hbyte : source.byte? offset = some byte) (hascii : byte < 128) :
    source.isBoundary offset = true := by
  have hlt : offset < source.size := lt_size_of_byte? hbyte
  rw [isBoundary_iff, String.Pos.Raw.isValid_iff_isUTF8FirstByte]
  have hget : source.text.getUTF8Byte ⟨offset⟩ hlt = byte := by
    obtain ⟨_, hget⟩ := Array.getElem?_eq_some_iff.mp hbyte
    exact hget
  have hlow : byte.toNat < 2 ^ 7 := hascii
  refine .inr ⟨hlt, .inl ?_⟩
  rw [hget]
  apply UInt8.toNat_inj.mp
  rw [UInt8.toNat_and]
  change byte.toNat &&& 2 ^ 7 = 0
  rw [Nat.and_two_pow, Nat.testBit_lt_two_pow hlow, Bool.toNat_false, Nat.zero_mul]

end Source

end JestMigration
