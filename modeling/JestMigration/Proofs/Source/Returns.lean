/-
# `Proofs.Source.Returns` — carriage returns that stand alone

The parser reads a lone carriage return as a line feed.  Which byte is replaced
is seen in the text as written, never in what has been replaced before it: in
CR CR LF the first return is alone and the second is not.  So each byte of the
result is a matter of two bytes of the text (`getElem?_normalizeReturns`), and
everything else follows from there:

  * `not_loneReturn_normalizeReturns`: no lone return is left, so a second
    pass has nothing to do;
  * `replaceLoneReturns_eq_self_iff`: the text is handed on as it is just if
    replacing would change nothing;
  * `count_take_normalizeReturns`: counting line feeds in the result counts
    line breaks in the text, up to every offset that is not inside a CRLF.
-/
import JestMigration.Source.Lines
import Mathlib.Data.List.Basic

namespace JestMigration

/-- At `i` stands a carriage return that no line feed follows. -/
def LoneReturn (bytes : List UInt8) (i : Nat) : Prop :=
  bytes[i]? = some carriageReturn ∧ bytes[i + 1]? ≠ some lineFeed

instance (bytes : List UInt8) (i : Nat) : Decidable (LoneReturn bytes i) :=
  inferInstanceAs (Decidable (_ ∧ _))

/-- The offset falls between the two bytes of a CRLF. -/
def InsidePair (bytes : List UInt8) (offset : Nat) : Prop :=
  0 < offset ∧ bytes[offset - 1]? = some carriageReturn ∧ bytes[offset]? = some lineFeed

instance (bytes : List UInt8) (offset : Nat) : Decidable (InsidePair bytes offset) :=
  inferInstanceAs (Decidable (_ ∧ _))

/-- The number of line breaks of a text: CRLF, and every other CR and LF. -/
def breakCount : List UInt8 → Nat
  | 13 :: 10 :: rest => breakCount rest + 1
  | 13 :: rest => breakCount rest + 1
  | 10 :: rest => breakCount rest + 1
  | _ :: rest => breakCount rest
  | [] => 0

/-! ## Byte by byte -/

theorem isLoneReturn_iff {byte : UInt8} {rest : List UInt8} :
    isLoneReturn byte rest = true ↔ LoneReturn (byte :: rest) 0 := by
  simp [isLoneReturn, LoneReturn, List.head?_eq_getElem?]

theorem hasLoneReturn_iff {bytes : List UInt8} :
    hasLoneReturn bytes = true ↔ ∃ i, LoneReturn bytes i := by
  induction bytes with
  | nil => simp [hasLoneReturn, LoneReturn]
  | cons byte rest ih =>
      rw [hasLoneReturn, Bool.or_eq_true, isLoneReturn_iff, ih]
      constructor
      · rintro (hhead | ⟨i, hi⟩)
        · exact ⟨0, hhead⟩
        · exact ⟨i + 1, hi⟩
      · rintro ⟨_ | i, hi⟩
        · exact .inl hi
        · exact .inr ⟨i, hi⟩

theorem getElem?_replaceLoneReturns (bytes : List UInt8) (i : Nat) :
    (replaceLoneReturns bytes)[i]? = if LoneReturn bytes i then some lineFeed else bytes[i]? := by
  induction bytes generalizing i with
  | nil => simp [replaceLoneReturns, LoneReturn]
  | cons byte rest ih =>
      cases i with
      | zero =>
          simp only [replaceLoneReturns, isLoneReturn_iff, List.getElem?_cons_zero]
          split <;> rfl
      | succ i => exact ih i

/-- Replacing changes nothing just if there is nothing to replace. -/
theorem replaceLoneReturns_eq_self_iff {bytes : List UInt8} :
    replaceLoneReturns bytes = bytes ↔ hasLoneReturn bytes = false := by
  rw [← Bool.not_eq_true, hasLoneReturn_iff]
  constructor
  · rintro hsame ⟨i, hlone⟩
    -- At `i` a carriage return would have to be a line feed.
    have hbyte := getElem?_replaceLoneReturns bytes i
    rw [hsame, if_pos hlone, hlone.1] at hbyte
    exact absurd hbyte (by decide)
  · intro hnone
    apply List.ext_getElem?
    intro i
    rw [getElem?_replaceLoneReturns, if_neg fun hlone => hnone ⟨i, hlone⟩]

/-- The test beforehand saves work and makes no difference. -/
theorem normalizeReturns_eq (bytes : List UInt8) :
    normalizeReturns bytes = replaceLoneReturns bytes := by
  unfold normalizeReturns
  split
  · rfl
  · rename_i hnone
    exact (replaceLoneReturns_eq_self_iff.mpr (Bool.not_eq_true _ ▸ hnone)).symm

theorem getElem?_normalizeReturns (bytes : List UInt8) (i : Nat) :
    (normalizeReturns bytes)[i]? = if LoneReturn bytes i then some lineFeed else bytes[i]? := by
  rw [normalizeReturns_eq, getElem?_replaceLoneReturns]

theorem length_normalizeReturns (bytes : List UInt8) :
    (normalizeReturns bytes).length = bytes.length := by
  rw [normalizeReturns_eq]
  induction bytes with
  | nil => rfl
  | cons byte rest ih => simp only [replaceLoneReturns, List.length_cons, ih]

/-- Line feeds of the result are line feeds and lone returns of the text. -/
theorem lineFeed_normalizeReturns_iff {bytes : List UInt8} {i : Nat} :
    (normalizeReturns bytes)[i]? = some lineFeed ↔
      bytes[i]? = some lineFeed ∨ LoneReturn bytes i := by
  rw [getElem?_normalizeReturns]
  split
  · simp_all
  · simp_all

/-! ## No lone return is left -/

theorem not_loneReturn_normalizeReturns (bytes : List UInt8) (i : Nat) :
    ¬ LoneReturn (normalizeReturns bytes) i := by
  rintro ⟨hreturn, hnext⟩
  rw [getElem?_normalizeReturns] at hreturn
  split at hreturn
  · exact absurd hreturn (by decide)
  · -- The return was there before, with its line feed, and that is where it was.
    rename_i hpaired
    apply hnext
    rw [lineFeed_normalizeReturns_iff]
    by_contra hother
    exact hpaired ⟨hreturn, fun hfeed => hother (.inl hfeed)⟩

theorem normalizeReturns_idem (bytes : List UInt8) :
    normalizeReturns (normalizeReturns bytes) = normalizeReturns bytes := by
  rw [normalizeReturns_eq (normalizeReturns bytes), replaceLoneReturns_eq_self_iff,
    ← Bool.not_eq_true, hasLoneReturn_iff]
  rintro ⟨i, hlone⟩
  exact not_loneReturn_normalizeReturns bytes i hlone

/-! ## Counting lines -/

theorem replaceLoneReturns_cons_of_ne {byte : UInt8} {rest : List UInt8}
    (h : byte ≠ carriageReturn) :
    replaceLoneReturns (byte :: rest) = byte :: replaceLoneReturns rest := by
  have hkept : isLoneReturn byte rest = false := by simp [isLoneReturn, h]
  rw [replaceLoneReturns, hkept]
  rfl

/-- Each line break has one line feed in the result. -/
theorem count_replaceLoneReturns (bytes : List UInt8) :
    (replaceLoneReturns bytes).count lineFeed = breakCount bytes := by
  fun_induction breakCount bytes with
  | case1 rest ih =>
      have hkept : isLoneReturn 13 (10 :: rest) = false := rfl
      rw [replaceLoneReturns, hkept, replaceLoneReturns_cons_of_ne (by decide)]
      simpa [lineFeed] using ih
  | case2 rest hpair ih =>
      have hlone : isLoneReturn 13 rest = true := by
        cases rest with
        | nil => rfl
        | cons next rest =>
            have hnext : next ≠ 10 := fun heq => hpair rest (by rw [heq])
            simpa [isLoneReturn, carriageReturn, lineFeed] using hnext
      rw [replaceLoneReturns, if_pos hlone, List.count_cons_self, ih]
  | case3 rest ih =>
      rw [replaceLoneReturns_cons_of_ne (by decide)]
      simpa [lineFeed] using ih
  | case4 byte rest _ hreturn hfeed ih =>
      rw [replaceLoneReturns_cons_of_ne hreturn, List.count_cons_of_ne (show byte ≠ lineFeed from hfeed),
        ih]
  | case5 => rfl

/-- Text up to an offset that is not inside a CRLF is replaced as it is within the whole. -/
theorem replaceLoneReturns_take {bytes : List UInt8} {offset : Nat}
    (h : ¬ InsidePair bytes offset) :
    replaceLoneReturns (bytes.take offset) = (replaceLoneReturns bytes).take offset := by
  apply List.ext_getElem?
  intro i
  rcases Nat.lt_or_ge i offset with hlt | hge
  · have hsame : LoneReturn (bytes.take offset) i ↔ LoneReturn bytes i := by
      unfold LoneReturn
      rw [List.getElem?_take_of_lt hlt]
      rcases Nat.lt_or_ge (i + 1) offset with hnext | hnext
      · rw [List.getElem?_take_of_lt hnext]
      · -- The last byte before the offset: what follows is cut off, but is no line feed.
        have hoffset : offset = i + 1 := by omega
        subst hoffset
        have hcut : (bytes.take (i + 1))[i + 1]? = none :=
          List.getElem?_eq_none_iff.mpr (List.length_take_le _ _)
        rw [hcut]
        refine and_congr_right fun hreturn => ⟨fun _ hfeed => ?_, fun _ => by simp⟩
        exact h ⟨Nat.succ_pos i, hreturn, hfeed⟩
    rw [List.getElem?_take_of_lt hlt, getElem?_replaceLoneReturns, getElem?_replaceLoneReturns,
      List.getElem?_take_of_lt hlt]
    simp only [hsame]
  · rw [List.getElem?_take_eq_none hge, getElem?_replaceLoneReturns, List.getElem?_take_eq_none hge,
      if_neg]
    rintro ⟨hreturn, _⟩
    rw [List.getElem?_take_eq_none hge] at hreturn
    exact absurd hreturn (by simp)

theorem count_take_normalizeReturns {bytes : List UInt8} {offset : Nat}
    (h : ¬ InsidePair bytes offset) :
    ((normalizeReturns bytes).take offset).count lineFeed = breakCount (bytes.take offset) := by
  rw [normalizeReturns_eq, ← replaceLoneReturns_take h, count_replaceLoneReturns]

/-- A line number is one more than the number of line breaks before. -/
theorem Source.lineAt_eq_breakCount {source : Source} {offset : Nat}
    (h : ¬ InsidePair source.bytes offset) :
    source.lineAt offset = 1 + breakCount (source.bytes.take offset) := by
  rw [lineAt, count_take_normalizeReturns h]

/-- Handing a text to the parser moves no byte.  Line feeds stand where the text has one or has a
lone return, every other byte is the one of the text, and no lone return is left, so that doing it
again changes nothing.  The text is handed on as it is just if replacing would not change it.  Up to
every offset that is not inside a CRLF there are as many line feeds as the text has line breaks. -/
theorem returns_normalized (bytes : List UInt8) :
    (normalizeReturns bytes).length = bytes.length ∧
    (∀ i, (normalizeReturns bytes)[i]? = some lineFeed ↔
      bytes[i]? = some lineFeed ∨ LoneReturn bytes i) ∧
    (∀ i, ¬ LoneReturn bytes i → (normalizeReturns bytes)[i]? = bytes[i]?) ∧
    (∀ i, ¬ LoneReturn (normalizeReturns bytes) i) ∧
    normalizeReturns (normalizeReturns bytes) = normalizeReturns bytes ∧
    (hasLoneReturn bytes = false ↔ replaceLoneReturns bytes = bytes) ∧
    ∀ offset, ¬ InsidePair bytes offset →
      ((normalizeReturns bytes).take offset).count lineFeed = breakCount (bytes.take offset) := by
  refine ⟨length_normalizeReturns bytes, fun i => lineFeed_normalizeReturns_iff, ?_,
    not_loneReturn_normalizeReturns bytes, normalizeReturns_idem bytes,
    replaceLoneReturns_eq_self_iff.symm, fun offset => count_take_normalizeReturns⟩
  intro i hpaired
  rw [getElem?_normalizeReturns, if_neg hpaired]

/-- In CR CR LF CR only the first and the last return are alone; the offset before the line feed is
left out, since one return is before it that is no line break yet. -/
theorem returns_normalized_mixed :
    normalizeReturns [13, 13, 10, 13] = [10, 13, 10, 10] ∧
    ¬ InsidePair [13, 13, 10, 13] 3 ∧
    ((normalizeReturns [13, 13, 10, 13]).take 3).count lineFeed = 2 ∧
    InsidePair [13, 13, 10, 13] 2 ∧
    ((normalizeReturns [13, 13, 10, 13]).take 2).count lineFeed ≠
      breakCount ([13, 13, 10, 13].take 2) := by
  have hcount := (returns_normalized [13, 13, 10, 13]).2.2.2.2.2.2 3 (by decide)
  exact ⟨by decide, by decide, hcount, by decide, by decide⟩

end JestMigration
