/-
# `Proofs.Source.Word` — names as whole words

A reader takes as many bytes into a name as there are, so a name is a word: it
does not go on to the left or to the right.  Whether a span is a word can be
seen inside any text around it (`isWord_of_slice?`); in a text that consists of
name bytes only, the only word is the text (`eq_whole_of_isWord`).
-/
import JestMigration.Proofs.Source.Slice

namespace JestMigration

namespace Source

/-- The ASCII bytes that names are made of. -/
def isNameByte (byte : UInt8) : Bool :=
  (48 ≤ byte && byte ≤ 57) || (65 ≤ byte && byte ≤ 90) || (97 ≤ byte && byte ≤ 122) ||
    byte == 95 || byte == 36

/-- The span is a whole word: no name goes on before or behind it, and there is no dot in it. -/
def isWord (source : Source) (span : Span) : Bool :=
  (span.start == 0 || !(source.byte? (span.start - 1)).any isNameByte) &&
    !(source.byte? span.stop).any isNameByte && (source.cut span).all fun byte => byte != 46

theorem isWord_iff {source : Source} {span : Span} : source.isWord span = true ↔
    (span.start = 0 ∨ (source.byte? (span.start - 1)).any isNameByte = false) ∧
      (source.byte? span.stop).any isNameByte = false ∧ ∀ byte ∈ source.cut span, byte ≠ 46 := by
  simp [isWord, and_assoc]

/-- A text that is not empty has a first byte. -/
theorem size_pos {text : String} (h : text ≠ "") : 0 < (Source.mk text).size := by
  apply Nat.pos_of_ne_zero
  intro hzero
  exact h (String.utf8ByteSize_eq_zero_iff.mp hzero)

theorem start_lt_stop_of_read_ne {source : Source} {span : Span} (h : source.read span ≠ "") :
    span.start < span.stop := by
  have hsize := size_of_slice? (slice?_of_read_ne h)
  have hpos := size_pos h
  omega

section

variable {source : Source} {outer inner : Span} {text : String}

/-- A word of the source is a word of any text that is read around it. -/
theorem isWord_of_slice? (h : source.slice? outer = some text)
    (hin : outer.contains inner = true) (hword : source.isWord inner = true)
    (hlt : inner.start < inner.stop) :
    (Source.mk text).isWord ⟨inner.start - outer.start, inner.stop - outer.start⟩ = true := by
  obtain ⟨hstart, hstop⟩ := Span.contains_iff.mp hin
  obtain ⟨hbefore, hafter, hdots⟩ := isWord_iff.mp hword
  refine isWord_iff.mpr ⟨?_, ?_, ?_⟩
  · rcases Nat.eq_or_lt_of_le hstart with heq | hlt'
    · exact .inl (by simp only; omega)
    · have hbyte := byte?_of_slice? h (i := inner.start - outer.start - 1) (by omega)
      rw [show outer.start + (inner.start - outer.start - 1) = inner.start - 1 by omega] at hbyte
      rcases hbefore with hzero | hbefore
      · omega
      · exact .inr (by rw [← hbyte]; exact hbefore)
  · rcases Nat.eq_or_lt_of_le hstop with heq | hlt'
    · have hsize := size_of_slice? h
      have hnone : (Source.mk text).byte? (inner.stop - outer.start) = none := by
        rw [byte?_eq_getElem?, List.getElem?_eq_none_iff, length_bytes]
        omega
      simp [hnone]
    · have hbyte := byte?_of_slice? h (i := inner.stop - outer.start) (by omega)
      rw [show outer.start + (inner.stop - outer.start) = inner.stop by omega] at hbyte
      rw [← hbyte]
      exact hafter
  · rw [cut_of_slice? h hin]
    exact hdots

/-- The only word in a text of name bytes is the text. -/
theorem eq_whole_of_isWord {span : Span} (hnames : source.bytes.all isNameByte = true)
    (hword : source.isWord span = true) (hlt : span.start < span.stop)
    (hle : span.stop ≤ source.size) : span = source.whole := by
  have hname : ∀ offset < source.size, (source.byte? offset).any isNameByte = true := by
    intro offset hoffset
    rw [byte?_eq_getElem?, List.getElem?_eq_getElem (by rw [length_bytes]; exact hoffset)]
    exact List.all_eq_true.mp hnames _ (List.getElem_mem _)
  obtain ⟨hbefore, hafter, _⟩ := isWord_iff.mp hword
  have hstart : span.start = 0 := by
    rcases hbefore with hzero | hbefore
    · exact hzero
    · rw [hname _ (by omega)] at hbefore
      exact absurd hbefore (by simp)
  have hstop : span.stop = source.size := by
    apply Nat.le_antisymm hle
    apply Nat.le_of_not_lt
    intro hlt'
    rw [hname _ hlt'] at hafter
    exact absurd hafter (by simp)
  exact congrArg₂ Span.mk hstart hstop

/-- A word inside a text of name bytes is all of it. -/
theorem eq_of_isWord (h : source.slice? outer = some text)
    (hnames : (Source.mk text).bytes.all isNameByte = true) (hin : outer.contains inner = true)
    (hword : source.isWord inner = true) (hlt : inner.start < inner.stop) : inner = outer := by
  obtain ⟨hstart, hstop⟩ := Span.contains_iff.mp hin
  have hsize := size_of_slice? h
  have hwhole := eq_whole_of_isWord hnames (isWord_of_slice? h hin hword hlt)
    (by simp only; omega) (by simp only; omega)
  simp only [whole, Span.mk.injEq] at hwhole
  exact congrArg₂ Span.mk (by omega) (by omega)

end

end Source

end JestMigration
