/-
# `Proofs.Source.Growth` — what a deleted line takes with it

Deleting a statement takes its line along, and the blank lines that follow it,
where nothing else stands on them.  `Grown inner outer` says all that is needed
of such a deletion: on the left it takes indentation, on the right blank bytes,
and it ends where the statement ends, after a line feed or with the text.

  * `grown_statementLine`, `grown_statementLines`: both deletions grow so;
  * `Grown.stop_le`, `Grown.le_start`: growth stops before a byte that is not
    blank, so it never reaches into a neighbour;
  * `Grown.separate`: growing keeps two statements apart, since the one line
    ends with a line feed and the other begins with indentation.
-/
import JestMigration.Proofs.Source.Slice
import Mathlib.Data.List.TakeWhile

namespace JestMigration

/-- Spaces, tabs and the bytes of line breaks. -/
def isWhite (byte : UInt8) : Bool :=
  isBlankByte byte || byte == lineFeed

theorem isWhite_of_isIndent {byte : UInt8} (h : isIndent byte = true) : isWhite byte = true := by
  simp [isWhite, isBlankByte, h]

/-- Blank bytes are characters of their own. -/
theorem lt_of_isWhite {byte : UInt8} (h : isWhite byte = true) : byte < 128 := by
  simp only [isWhite, isBlankByte, isIndent, lineFeed, carriageReturn, Bool.or_eq_true,
    beq_iff_eq] at h
  rcases h with ((rfl | rfl) | rfl) | rfl <;> decide

theorem isWhite_of_isBlankByte {byte : UInt8} (h : isBlankByte byte = true) :
    isWhite byte = true := by
  simp [isWhite, h]

namespace Source

/-- All bytes from `first` up to `last` are there and satisfy `p`. -/
def AllBytes (source : Source) (p : UInt8 → Bool) (first last : Nat) : Prop :=
  ∀ i, first ≤ i → i < last → ∃ byte, source.byte? i = some byte ∧ p byte = true

theorem AllBytes.mono {source : Source} {p q : UInt8 → Bool} {first last : Nat}
    (hpq : ∀ {byte}, p byte = true → q byte = true) (h : source.AllBytes p first last) :
    source.AllBytes q first last := by
  intro i hfirst hlast
  obtain ⟨byte, hbyte, hp⟩ := h i hfirst hlast
  exact ⟨byte, hbyte, hpq hp⟩

theorem AllBytes.append {source : Source} {p : UInt8 → Bool} {a b c : Nat}
    (hab : source.AllBytes p a b) (hbc : source.AllBytes p b c) : source.AllBytes p a c := by
  intro i ha hc
  rcases Nat.lt_or_ge i b with hb | hb
  · exact hab i ha hb
  · exact hbc i hb hc

theorem AllBytes.single {source : Source} {p : UInt8 → Bool} {offset : Nat} {byte : UInt8}
    (hbyte : source.byte? offset = some byte) (hp : p byte = true) :
    source.AllBytes p offset (offset + 1) := by
  intro i hle hlt
  have hi : i = offset := by omega
  exact ⟨byte, hi ▸ hbyte, hp⟩

/-! ## Scanning -/

theorem getElem?_of_lt_takeWhile {α : Type} {p : α → Bool} {l : List α} {k : Nat}
    (h : k < (l.takeWhile p).length) : ∃ x, l[k]? = some x ∧ p x = true := by
  have hget := (List.takeWhile_prefix p).getElem h
  refine ⟨(l.takeWhile p)[k], ?_, List.mem_takeWhile_imp (List.getElem_mem h)⟩
  rw [hget]
  exact List.getElem?_eq_getElem _

theorem allBytes_skipWhile (source : Source) (p : UInt8 → Bool) (offset : Nat) :
    source.AllBytes p offset (source.skipWhile p offset) := by
  intro i hle hlt
  have hk : i - offset < ((source.bytes.drop offset).takeWhile p).length := by
    unfold skipWhile at hlt
    omega
  obtain ⟨byte, hbyte, hp⟩ := getElem?_of_lt_takeWhile hk
  rw [List.getElem?_drop, Nat.add_sub_cancel' hle] at hbyte
  exact ⟨byte, by rw [byte?_eq_getElem?, hbyte], hp⟩

theorem skipWhileBack_le (source : Source) (p : UInt8 → Bool) (offset : Nat) :
    source.skipWhileBack p offset ≤ offset :=
  Nat.sub_le _ _

theorem allBytes_skipWhileBack {source : Source} {offset : Nat} (p : UInt8 → Bool)
    (h : offset ≤ source.size) :
    source.AllBytes p (source.skipWhileBack p offset) offset := by
  intro i hle hlt
  -- Read backwards, the byte at `i` is the one `offset - 1 - i` places after the first.
  have hk : offset - 1 - i < ((source.bytes.take offset).reverse.takeWhile p).length := by
    unfold skipWhileBack at hle
    omega
  have hlen : (source.bytes.take offset).length = offset := by
    rw [List.length_take, length_bytes, Nat.min_eq_left h]
  obtain ⟨byte, hbyte, hp⟩ := getElem?_of_lt_takeWhile hk
  rw [List.getElem?_reverse (by omega), hlen, List.getElem?_take_of_lt (by omega)] at hbyte
  have hi : offset - 1 - (offset - 1 - i) = i := by omega
  exact ⟨byte, by rw [byte?_eq_getElem?, ← hi, hbyte], hp⟩

/-- A line ends at once at the end of the text, else with its line feed. -/
theorem lineEnd?_spec {source : Source} {offset stop : Nat}
    (h : source.lineEnd? offset = some stop) :
    offset ≤ stop ∧ source.AllBytes isWhite offset stop ∧
      (source.byte? (stop - 1) = some lineFeed ∨ source.size ≤ stop) := by
  unfold lineEnd? at h
  split at h
  · rename_i hnone
    cases h
    rw [byte?_eq_getElem?, List.getElem?_eq_none_iff, length_bytes] at hnone
    exact ⟨Nat.le_refl _, fun i hle hlt => absurd hlt (by omega), .inr hnone⟩
  · rename_i byte hbyte
    simp only [beq_iff_eq, Bool.and_eq_true] at h
    split at h
    · rename_i hfeed
      cases h
      exact ⟨by omega, .single hbyte (by simp [isWhite, hfeed]), .inl (by simpa [hfeed] using hbyte)⟩
    · split at h
      · rename_i hreturn
        cases h
        have hfirst : source.AllBytes isWhite offset (offset + 1) :=
          .single hbyte (by simp [isWhite, isBlankByte, hreturn.1])
        have hsecond : source.AllBytes isWhite (offset + 1) (offset + 2) :=
          .single hreturn.2 (by simp [isWhite])
        exact ⟨by omega, hfirst.append hsecond, .inl hreturn.2⟩
      · exact absurd h (by simp)

theorem blankLineEnd?_spec {source : Source} {offset stop : Nat}
    (h : source.blankLineEnd? offset = some stop) :
    offset ≤ stop ∧ source.AllBytes isWhite offset stop ∧
      source.byte? (stop - 1) = some lineFeed := by
  have hbounds := blankLineEnd?_bounds h
  unfold blankLineEnd? at h
  simp only [beq_iff_eq] at h
  split at h
  · rename_i hfeed
    cases h
    have hblank := (source.allBytes_skipWhile isBlankByte offset).mono isWhite_of_isBlankByte
    exact ⟨by omega, hblank.append (.single hfeed (by simp [isWhite])), hfeed⟩
  · exact absurd h (by simp)

/-- Blank lines are blank, and the last of them ends with a line feed. -/
theorem skipBlankLines_spec (source : Source) (offset : Nat) :
    offset ≤ source.skipBlankLines offset ∧
      source.AllBytes isWhite offset (source.skipBlankLines offset) ∧
      (source.skipBlankLines offset = offset ∨
        source.byte? (source.skipBlankLines offset - 1) = some lineFeed) := by
  fun_induction skipBlankLines source offset with
  | case1 offset next hnext ih =>
      obtain ⟨hle, hwhite, hlast⟩ := blankLineEnd?_spec hnext
      obtain ⟨hle', hwhite', hlast'⟩ := ih
      refine ⟨by omega, hwhite.append hwhite', .inr ?_⟩
      rcases hlast' with hsame | hfeed
      · rw [hsame]
        exact hlast
      · exact hfeed
  | case2 offset hnone =>
      exact ⟨Nat.le_refl _, fun i hle hlt => absurd hlt (by omega), .inl rfl⟩

/-! ## Growth -/

/-- `outer` is `inner` grown over indentation on the left and blank bytes on the right, up to the
end of a line if it grows at all. -/
structure Grown (source : Source) (inner outer : Span) : Prop where
  start_le : outer.start ≤ inner.start
  le_stop : inner.stop ≤ outer.stop
  before : source.AllBytes isIndent outer.start inner.start
  after : source.AllBytes isWhite inner.stop outer.stop
  ending : outer.stop = inner.stop ∨ source.byte? (outer.stop - 1) = some lineFeed ∨
    source.size ≤ outer.stop

theorem Grown.refl (source : Source) (span : Span) : source.Grown span span where
  start_le := Nat.le_refl _
  le_stop := Nat.le_refl _
  before := fun _ hle hlt => absurd hlt (by omega)
  after := fun _ hle hlt => absurd hlt (by omega)
  ending := .inl rfl

/-- What is deleted for a statement is the statement, grown to its line at most. -/
theorem grown_statementLine {source : Source} {statement : Span}
    (h : statement.start ≤ source.size) :
    source.Grown statement (source.statementLine statement) := by
  unfold statementLine
  simp only []
  split
  · split
    · rename_i stop hstop
      obtain ⟨hle, hwhite, hlast⟩ := lineEnd?_spec hstop
      have hindent :=
        (source.allBytes_skipWhile isIndent statement.stop).mono isWhite_of_isIndent
      have hstep := source.le_skipWhile isIndent statement.stop
      exact {
        start_le := source.skipWhileBack_le isIndent statement.start
        le_stop := Nat.le_trans hstep hle
        before := allBytes_skipWhileBack isIndent h
        after := hindent.append hwhite
        ending := .inr hlast }
    · exact .refl source statement
  · exact .refl source statement

/-- The same with the blank lines after it. -/
theorem grown_statementLines {source : Source} {statement : Span}
    (h : statement.start ≤ source.size) :
    source.Grown statement (source.statementLines statement) := by
  have hline := grown_statementLine h
  unfold statementLines
  simp only []
  split
  · obtain ⟨hle, hwhite, hlast⟩ := source.skipBlankLines_spec (source.statementLine statement).stop
    have hstop := hline.le_stop
    refine ⟨hline.start_le, by simp only; omega, hline.before, hline.after.append hwhite, ?_⟩
    rcases hlast with hsame | hfeed
    · simp only [hsame]
      exact hline.ending
    · exact .inr (.inl hfeed)
  · exact hline

namespace Grown

variable {source : Source} {inner outer : Span}

theorem contains (h : source.Grown inner outer) : outer.contains inner = true :=
  Span.contains_iff.mpr ⟨h.start_le, h.le_stop⟩

/-- Growth to the right stops before a byte that is not blank. -/
theorem stop_le (h : source.Grown inner outer) {offset : Nat} {byte : UInt8}
    (hle : inner.stop ≤ offset) (hbyte : source.byte? offset = some byte)
    (hsolid : isWhite byte = false) : outer.stop ≤ offset := by
  rcases Nat.lt_or_ge offset outer.stop with hlt | hge
  · obtain ⟨other, hother, hwhite⟩ := h.after offset hle hlt
    rw [hbyte] at hother
    cases hother
    rw [hsolid] at hwhite
    exact absurd hwhite (by simp)
  · exact hge

/-- Growth to the left stops behind a byte that is not indentation. -/
theorem le_start (h : source.Grown inner outer) {offset : Nat} {byte : UInt8}
    (hlt : offset < inner.start) (hbyte : source.byte? offset = some byte)
    (hsolid : isIndent byte = false) : offset + 1 ≤ outer.start := by
  rcases Nat.lt_or_ge offset outer.start with hlt' | hge
  · exact hlt'
  · obtain ⟨other, hother, hindent⟩ := h.before offset hge hlt
    rw [hbyte] at hother
    cases hother
    rw [hsolid] at hindent
    exact absurd hindent (by simp)

/-- Growth begins and ends between characters. -/
theorem slice?_isSome (h : source.Grown inner outer) (hinner : (source.slice? inner).isSome) :
    (source.slice? outer).isSome := by
  obtain ⟨text, htext⟩ := Option.isSome_iff_exists.mp hinner
  obtain ⟨hforward, hstart, hstop⟩ := bounds_of_slice? htext
  have hstart' : source.isBoundary outer.start = true := by
    rcases Nat.lt_or_ge outer.start inner.start with hlt | hge
    · obtain ⟨byte, hbyte, hindent⟩ := h.before outer.start (Nat.le_refl _) hlt
      exact isBoundary_of_byte? hbyte (lt_of_isWhite (isWhite_of_isIndent hindent))
    · rw [Nat.le_antisymm h.start_le hge]
      exact hstart
  have hstop' : source.isBoundary outer.stop = true := by
    rcases Nat.lt_or_ge inner.stop outer.stop with hlt | hge
    · obtain ⟨byte, hbyte, hwhite⟩ := h.after (outer.stop - 1) (by omega) (by omega)
      have hascii := lt_of_isWhite hwhite
      have hnext := isBoundary_succ (isBoundary_of_byte? hbyte hascii) hbyte hascii
      rwa [Nat.sub_add_cancel (by omega)] at hnext
    · rw [← Nat.le_antisymm h.le_stop hge]
      exact hstop
  have hle : outer.start ≤ outer.stop := by
    have hbefore := h.start_le
    have hafter := h.le_stop
    omega
  obtain ⟨text', htext'⟩ := exists_slice? hle hstart' hstop'
  exact Option.isSome_iff_exists.mpr ⟨text', htext'⟩

end Grown

/-! ## Spans that begin and end with a visible byte -/

/-- The span is not empty, and neither its first nor its last byte is blank. -/
def isTrimmed (source : Source) (span : Span) : Bool :=
  decide (span.start < span.stop) &&
    (source.byte? span.start).any (fun byte => !isWhite byte) &&
    (source.byte? (span.stop - 1)).any fun byte => !isWhite byte

theorem isTrimmed_iff {source : Source} {span : Span} :
    source.isTrimmed span = true ↔ span.start < span.stop ∧
      (∃ byte, source.byte? span.start = some byte ∧ isWhite byte = false) ∧
      ∃ byte, source.byte? (span.stop - 1) = some byte ∧ isWhite byte = false := by
  simp only [isTrimmed, Bool.and_eq_true, decide_eq_true_eq, Option.any_eq_true,
    Bool.not_eq_true', and_assoc]

theorem start_le_of_isTrimmed {source : Source} {span : Span} (h : source.isTrimmed span = true) :
    span.start ≤ source.size := by
  obtain ⟨_, ⟨byte, hbyte, _⟩, _⟩ := isTrimmed_iff.mp h
  exact Nat.le_of_lt (lt_size_of_byte? hbyte)

theorem isIndent_of_not_isWhite {byte : UInt8} (h : isWhite byte = false) :
    isIndent byte = false := by
  cases hindent : isIndent byte with
  | false => rfl
  | true => rw [isWhite_of_isIndent hindent] at h; exact h

namespace Grown

variable {source : Source} {inner outer span : Span}

/-- Growth does not reach a trimmed span that follows. -/
theorem stop_le_of_isTrimmed (h : source.Grown inner outer) (ht : source.isTrimmed span = true)
    (hle : inner.stop ≤ span.start) : outer.stop ≤ span.start := by
  obtain ⟨_, ⟨byte, hbyte, hsolid⟩, _⟩ := isTrimmed_iff.mp ht
  exact h.stop_le hle hbyte hsolid

/-- Growth does not reach a trimmed span that comes before. -/
theorem le_start_of_isTrimmed (h : source.Grown inner outer) (ht : source.isTrimmed span = true)
    (hle : span.stop ≤ inner.start) : span.stop ≤ outer.start := by
  obtain ⟨hlt, _, byte, hbyte, hsolid⟩ := isTrimmed_iff.mp ht
  have hstep := h.le_start (by omega) hbyte (isIndent_of_not_isWhite hsolid)
  omega

/-- Two trimmed spans that do not meet do not meet when both have grown. -/
theorem separate {inner' outer' : Span} (h : source.Grown inner outer)
    (h' : source.Grown inner' outer') (ht : source.isTrimmed inner = true)
    (ht' : source.isTrimmed inner' = true) (hle : inner.stop ≤ inner'.start) :
    outer.stop ≤ outer'.start := by
  have hright := h.stop_le_of_isTrimmed ht' hle
  rcases h.ending with hsame | hfeed | hend
  · -- No growth to the right: the second span stops behind the last byte of the first.
    rw [hsame]
    exact h'.le_start_of_isTrimmed ht hle
  · -- The line feed at the end is no indentation of the second line.
    have hpos := (isTrimmed_iff.mp ht).1
    have hgrow := h.le_stop
    have hstep := h'.le_start (show outer.stop - 1 < inner'.start by omega) hfeed (by decide)
    omega
  · -- Behind the end of the text there is no second span.
    obtain ⟨_, ⟨byte, hbyte, _⟩, _⟩ := isTrimmed_iff.mp ht'
    have hin := lt_size_of_byte? hbyte
    omega

theorem inner_le {inner' : Span} (h : source.Grown inner outer) (h' : source.Grown inner' outer)
    (ht' : source.isTrimmed inner' = true) :
    inner.start ≤ inner'.start ∧ inner'.stop ≤ inner.stop := by
  obtain ⟨hlt, ⟨first, hfirst, hvisible⟩, last, hlast, hvisible'⟩ := isTrimmed_iff.mp ht'
  have hstart := h'.start_le
  have hstop := h'.le_stop
  constructor
  · by_contra hle
    have hstep := h.le_start (by omega) hfirst (isIndent_of_not_isWhite hvisible)
    omega
  · by_contra hle
    have hstep := h.stop_le (by omega) hlast hvisible'
    omega

/-- A span has grown from one trimmed span only. -/
theorem inner_unique {inner' : Span} (h : source.Grown inner outer)
    (h' : source.Grown inner' outer) (ht : source.isTrimmed inner = true)
    (ht' : source.isTrimmed inner' = true) : inner = inner' := by
  obtain ⟨hstart, hstop⟩ := h.inner_le h' ht'
  obtain ⟨hstart', hstop'⟩ := h'.inner_le h ht
  exact Span.contains_antisymm (Span.contains_iff.mpr ⟨by omega, by omega⟩)
    (Span.contains_iff.mpr ⟨by omega, by omega⟩)

end Grown

end Source

end JestMigration
