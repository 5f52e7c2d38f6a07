/-
# `Proofs.Source.OwnLine` — where a deleted line begins and ends

`Grown` says what a deletion may take along; here it is said what it does take.
Lines, line breaks and blank lines are described by their bytes, apart from the
scans that look for them:

  * `skipWhile_eq`, `skipWhileBack_eq`: a scan ends where its bytes end, so what
    it finds is known by what it is;
  * `statementLine_eq_of_ownLine`, `statementLine_eq_self`: a statement goes with
    its line if only indentation stands beside it there, else alone;
  * `isGreatest_skipBlankLines`: of the runs of blank lines behind the line, the
    longest is taken, in so many rounds of the loop;
  * `own_or_blank_of_statementLines`: nothing is taken from a line that is not
    blank and has nothing of the statement.
-/
import JestMigration.Proofs.Source.Growth
import Mathlib.Logic.Relation
import Mathlib.Order.Bounds.Basic

namespace JestMigration

namespace Source

/-! ## Where scans end -/

theorem any_getElem?_length_takeWhile {α : Type} (p : α → Bool) (l : List α) :
    (l[(l.takeWhile p).length]?).any p = false := by
  induction l with
  | nil => rfl
  | cons x l ih =>
      rw [List.takeWhile_cons]
      split
      · exact ih
      · rename_i hx
        simpa using hx

theorem AllBytes.any_eq_true {source : Source} {p : UInt8 → Bool} {first last i : Nat}
    (h : source.AllBytes p first last) (hfirst : first ≤ i) (hlast : i < last) :
    (source.byte? i).any p = true := by
  obtain ⟨byte, hbyte, hp⟩ := h i hfirst hlast
  rw [hbyte]
  exact hp

theorem any_byte?_skipWhile (source : Source) (p : UInt8 → Bool) (offset : Nat) :
    (source.byte? (source.skipWhile p offset)).any p = false := by
  rw [byte?_eq_getElem?, skipWhile, ← List.getElem?_drop]
  exact any_getElem?_length_takeWhile p _

/-- A scan to the right ends at the first byte that does not belong to it. -/
theorem skipWhile_eq {source : Source} {p : UInt8 → Bool} {offset last : Nat}
    (hle : offset ≤ last) (hall : source.AllBytes p offset last)
    (hend : (source.byte? last).any p = false) : source.skipWhile p offset = last := by
  have hscan := source.allBytes_skipWhile p offset
  have hstop := source.any_byte?_skipWhile p offset
  have hle' := source.le_skipWhile p offset
  rcases Nat.lt_trichotomy (source.skipWhile p offset) last with hlt | heq | hgt
  · rw [hall.any_eq_true hle' hlt] at hstop
    exact absurd hstop (by simp)
  · exact heq
  · rw [hscan.any_eq_true hle hgt] at hend
    exact absurd hend (by simp)

theorem skipWhile_le_size {source : Source} {offset : Nat} (p : UInt8 → Bool)
    (h : offset ≤ source.size) : source.skipWhile p offset ≤ source.size := by
  by_contra hgt
  obtain ⟨byte, hbyte, _⟩ := source.allBytes_skipWhile p offset source.size h (by omega)
  exact absurd (lt_size_of_byte? hbyte) (Nat.lt_irrefl _)

theorem any_byte?_skipWhileBack {source : Source} {p : UInt8 → Bool} {offset : Nat}
    (h : offset ≤ source.size) : source.skipWhileBack p offset = 0 ∨
      (source.byte? (source.skipWhileBack p offset - 1)).any p = false := by
  have hstop := any_getElem?_length_takeWhile p (source.bytes.take offset).reverse
  have hlen : (source.bytes.take offset).length = offset := by
    rw [List.length_take, length_bytes, Nat.min_eq_left h]
  unfold skipWhileBack
  generalize ((source.bytes.take offset).reverse.takeWhile p).length = count at hstop ⊢
  rcases Nat.lt_or_ge count offset with hlt | hge
  · right
    rw [List.getElem?_reverse (by omega), hlen, List.getElem?_take_of_lt (by omega),
      ← byte?_eq_getElem?] at hstop
    rwa [show offset - count - 1 = offset - 1 - count by omega]
  · exact .inl (by omega)

/-- A scan to the left ends behind the last byte that does not belong to it. -/
theorem skipWhileBack_eq {source : Source} {p : UInt8 → Bool} {first offset : Nat}
    (hle : first ≤ offset) (hsize : offset ≤ source.size) (hall : source.AllBytes p first offset)
    (hend : first = 0 ∨ (source.byte? (first - 1)).any p = false) :
    source.skipWhileBack p offset = first := by
  have hscan := allBytes_skipWhileBack p hsize
  have hstop := any_byte?_skipWhileBack (p := p) hsize
  have hle' := source.skipWhileBack_le p offset
  rcases Nat.lt_trichotomy (source.skipWhileBack p offset) first with hlt | heq | hgt
  · rcases hend with hzero | hend
    · omega
    · rw [hscan.any_eq_true (by omega) (by omega)] at hend
      exact absurd hend (by simp)
  · exact heq
  · rcases hstop with hzero | hstop
    · omega
    · rw [hall.any_eq_true (by omega) (by omega)] at hstop
      exact absurd hstop (by simp)

/-! ## Lines -/

/-- The offset is right behind a line feed. -/
def AfterFeed (source : Source) (offset : Nat) : Prop :=
  ∃ feed, offset = feed + 1 ∧ source.byte? feed = some lineFeed

/-- The span begins where a line begins, and ends behind a line feed or with the text. -/
def WholeLine (source : Source) (span : Span) : Prop :=
  (span.start = 0 ∨ source.AfterFeed span.start) ∧
    (source.AfterFeed span.stop ∨ span.stop = source.size)

/-- From `first` to `last` goes a line break, LF or CRLF, or the text ends there. -/
inductive LineBreak (source : Source) : Nat → Nat → Prop
  | feed {first : Nat} : source.byte? first = some lineFeed → LineBreak source first (first + 1)
  | pair {first : Nat} : source.byte? first = some carriageReturn →
      source.byte? (first + 1) = some lineFeed → LineBreak source first (first + 2)
  | ending : LineBreak source source.size source.size

/-- `line` is the line of the statement, and only spaces and tabs are beside the statement: before
it from the beginning of the line on, behind it up to the line break. -/
structure OwnLine (source : Source) (statement line : Span) : Prop where
  start_le : line.start ≤ statement.start
  begins : line.start = 0 ∨ source.AfterFeed line.start
  before : source.AllBytes isIndent line.start statement.start
  after : ∃ last, statement.stop ≤ last ∧ source.AllBytes isIndent statement.stop last ∧
    source.LineBreak last line.stop

theorem isLineStart_iff {source : Source} {offset : Nat} :
    source.isLineStart offset = true ↔ offset = 0 ∨ source.AfterFeed offset := by
  rw [isLineStart, Bool.or_eq_true, beq_iff_eq, beq_iff_eq, AfterFeed]
  cases offset with
  | zero => simp
  | succ feed => simp

theorem byte?_eq_none_iff {source : Source} {offset : Nat} :
    source.byte? offset = none ↔ source.size ≤ offset := by
  rw [byte?_eq_getElem?, List.getElem?_eq_none_iff, length_bytes]

theorem lineEnd?_eq_some_iff {source : Source} {offset stop : Nat} (h : offset ≤ source.size) :
    source.lineEnd? offset = some stop ↔ source.LineBreak offset stop := by
  constructor
  · intro hend
    unfold lineEnd? at hend
    split at hend
    · rename_i hnone
      have hsize : offset = source.size := by
        have hge := byte?_eq_none_iff.mp hnone
        omega
      cases hend
      rw [hsize]
      exact .ending
    · rename_i byte hbyte
      simp only [beq_iff_eq, Bool.and_eq_true] at hend
      split at hend
      · rename_i hfeed
        cases hend
        exact .feed (hfeed ▸ hbyte)
      · split at hend
        · rename_i hreturn
          cases hend
          exact .pair (hreturn.1 ▸ hbyte) hreturn.2
        · exact absurd hend (by simp)
  · intro hbreak
    cases hbreak with
    | feed hfeed => simp [lineEnd?, hfeed]
    | pair hreturn hfeed => simp [lineEnd?, hreturn, hfeed, carriageReturn, lineFeed]
    | ending => simp [lineEnd?, byte?_eq_none_iff.mpr (Nat.le_refl source.size)]

/-- What ends a line is no indentation. -/
theorem LineBreak.any_isIndent {source : Source} {first last : Nat}
    (h : source.LineBreak first last) : (source.byte? first).any isIndent = false := by
  cases h with
  | feed hfeed => rw [hfeed]; rfl
  | pair hreturn _ => rw [hreturn]; rfl
  | ending => rw [byte?_eq_none_iff.mpr (Nat.le_refl _)]; rfl

/-- A line break has one line feed, its last byte. -/
theorem LineBreak.byte?_ne {source : Source} {first last k : Nat} (h : source.LineBreak first last)
    (hfirst : first ≤ k) (hlast : k + 1 < last) : source.byte? k ≠ some lineFeed := by
  cases h with
  | feed _ => omega
  | pair hreturn _ =>
      have hk : k = first := by omega
      rw [hk, hreturn]
      decide
  | ending => omega

theorem LineBreak.first_le_size {source : Source} {first last : Nat}
    (h : source.LineBreak first last) : first ≤ source.size := by
  cases h with
  | feed hfeed => exact Nat.le_of_lt (lt_size_of_byte? hfeed)
  | pair hreturn _ => exact Nat.le_of_lt (lt_size_of_byte? hreturn)
  | ending => exact Nat.le_refl _

theorem LineBreak.afterFeed_or {source : Source} {first last : Nat}
    (h : source.LineBreak first last) : source.AfterFeed last ∨ last = source.size := by
  cases h with
  | feed hfeed => exact .inl ⟨_, rfl, hfeed⟩
  | pair _ hfeed => exact .inl ⟨_, rfl, hfeed⟩
  | ending => exact .inr rfl

theorem AfterFeed.any_isIndent {source : Source} {offset : Nat} (h : source.AfterFeed offset) :
    (source.byte? (offset - 1)).any isIndent = false := by
  obtain ⟨feed, rfl, hfeed⟩ := h
  rw [Nat.add_sub_cancel, hfeed]
  rfl

section

variable {source : Source} {statement line : Span}

theorem OwnLine.wholeLine (h : source.OwnLine statement line) : source.WholeLine line := by
  obtain ⟨_, _, _, hbreak⟩ := h.after
  exact ⟨h.begins, hbreak.afterFeed_or⟩

/-- A statement with a line of its own is deleted with it. -/
theorem statementLine_eq_of_ownLine (hstart : statement.start ≤ source.size)
    (h : source.OwnLine statement line) : source.statementLine statement = line := by
  obtain ⟨last, hlast, hindent, hbreak⟩ := h.after
  have hback : source.skipWhileBack isIndent statement.start = line.start :=
    skipWhileBack_eq h.start_le hstart h.before (h.begins.imp_right AfterFeed.any_isIndent)
  have hforth : source.skipWhile isIndent statement.stop = last :=
    skipWhile_eq hlast hindent hbreak.any_isIndent
  have hend := (lineEnd?_eq_some_iff hbreak.first_le_size).mpr hbreak
  simp only [statementLine, hback, hforth, isLineStart_iff.mpr h.begins, hend, if_true]

/-- A statement without a line of its own is deleted alone. -/
theorem statementLine_eq_self (hstart : statement.start ≤ source.size)
    (hstop : statement.stop ≤ source.size) (h : ∀ line, ¬ source.OwnLine statement line) :
    source.statementLine statement = statement := by
  unfold statementLine
  simp only []
  split
  · rename_i hbegins
    split
    · rename_i stop hend
      -- The scans have found a line of its own.
      have hle := skipWhile_le_size isIndent hstop
      refine absurd ?_ (h ⟨source.skipWhileBack isIndent statement.start, stop⟩)
      exact {
        start_le := source.skipWhileBack_le isIndent statement.start
        begins := isLineStart_iff.mp hbegins
        before := allBytes_skipWhileBack isIndent hstart
        after := ⟨_, source.le_skipWhile isIndent statement.stop,
          source.allBytes_skipWhile isIndent statement.stop, (lineEnd?_eq_some_iff hle).mp hend⟩ }
    · rfl
  · rfl

end

/-! ## Blank lines -/

/-- From `first` to `last` goes a line of spaces, tabs and carriage returns with its line feed. -/
def BlankLine (source : Source) (first last : Nat) : Prop :=
  ∃ feed, last = feed + 1 ∧ first ≤ feed ∧ source.AllBytes isBlankByte first feed ∧
    source.byte? feed = some lineFeed

theorem blankLineEnd?_eq_some_iff {source : Source} {first last : Nat} :
    source.blankLineEnd? first = some last ↔ source.BlankLine first last := by
  constructor
  · intro hend
    unfold blankLineEnd? at hend
    simp only [beq_iff_eq] at hend
    split at hend
    · rename_i hfeed
      cases hend
      exact ⟨_, rfl, source.le_skipWhile _ _, source.allBytes_skipWhile _ _, hfeed⟩
    · exact absurd hend (by simp)
  · rintro ⟨feed, rfl, hle, hblank, hfeed⟩
    have hscan : source.skipWhile isBlankByte first = feed :=
      skipWhile_eq hle hblank (by rw [hfeed]; rfl)
    simp [blankLineEnd?, hscan, hfeed]

/-- Where the loop over blank lines stands after so many rounds, none if it has ended before. -/
def blankRounds? (source : Source) : Nat → Nat → Option Nat
  | 0, offset => some offset
  | rounds + 1, offset => (source.blankLineEnd? offset).bind (source.blankRounds? rounds)

/-- The loop ends, and ends where no blank line follows. -/
theorem exists_blankRounds? (source : Source) (offset : Nat) :
    (∃ rounds, source.blankRounds? rounds offset = some (source.skipBlankLines offset)) ∧
      source.blankLineEnd? (source.skipBlankLines offset) = none := by
  fun_induction skipBlankLines source offset with
  | case1 offset next hnext ih =>
      obtain ⟨⟨rounds, hrounds⟩, hend⟩ := ih
      refine ⟨⟨rounds + 1, ?_⟩, hend⟩
      rw [blankRounds?, hnext, Option.bind_some, hrounds]
  | case2 offset hnone => exact ⟨⟨0, rfl⟩, hnone⟩

theorem skipBlankLines_of_blankLine {source : Source} {first last : Nat}
    (h : source.BlankLine first last) :
    source.skipBlankLines first = source.skipBlankLines last := by
  have hend := blankLineEnd?_eq_some_iff.mpr h
  rw [skipBlankLines]
  split
  · rename_i next hnext
    rw [hend] at hnext
    cases hnext
    rfl
  · rename_i hnone
    rw [hend] at hnone
    exact absurd hnone (by simp)

theorem reflTransGen_skipBlankLines (source : Source) (offset : Nat) :
    Relation.ReflTransGen source.BlankLine offset (source.skipBlankLines offset) := by
  fun_induction skipBlankLines source offset with
  | case1 offset next hnext ih => exact .head (blankLineEnd?_eq_some_iff.mp hnext) ih
  | case2 offset hnone => exact .refl

/-- Of all runs of blank lines that follow, the loop takes the longest. -/
theorem isGreatest_skipBlankLines (source : Source) (offset : Nat) :
    IsGreatest {last | Relation.ReflTransGen source.BlankLine offset last}
      (source.skipBlankLines offset) := by
  refine ⟨source.reflTransGen_skipBlankLines offset, ?_⟩
  intro last hrun
  have hsame : source.skipBlankLines offset = source.skipBlankLines last := by
    induction hrun with
    | refl => rfl
    | tail _ hline ih => rw [ih, skipBlankLines_of_blankLine hline]
  rw [hsame]
  exact (source.skipBlankLines_spec last).1

/-! ## Neighbours -/

/-- No line feed comes between the two bytes; a line feed belongs to the line that it ends. -/
def SameLine (source : Source) (i j : Nat) : Prop :=
  ∀ k, min i j ≤ k → k < max i j → source.byte? k ≠ some lineFeed

/-- All bytes on the line of `i` are blank. -/
def OnBlankLine (source : Source) (i : Nat) : Prop :=
  ∀ j byte, source.SameLine i j → source.byte? j = some byte → isWhite byte = true

theorem sameLine_of_allBytes {source : Source} {p : UInt8 → Bool} {i j : Nat} (hle : i ≤ j)
    (h : source.AllBytes p i j) (hp : p lineFeed = false) : source.SameLine i j := by
  intro k hi hj hfeed
  have hk := h.any_eq_true (show i ≤ k by omega) (show k < j by omega)
  rw [hfeed] at hk
  exact absurd (hk.symm.trans hp) (by simp)

/-- A run of blank lines from the beginning of a line on is all on blank lines. -/
theorem onBlankLine_of_run {source : Source} {first last : Nat}
    (hfirst : first = 0 ∨ source.AfterFeed first)
    (h : Relation.ReflTransGen source.BlankLine first last) {i : Nat} (hi : first ≤ i)
    (hlast : i < last) : source.OnBlankLine i := by
  induction h using Relation.ReflTransGen.head_induction_on with
  | refl => omega
  | @head first next hline hrun ih =>
      obtain ⟨feed, rfl, hle, hblank, hfeed⟩ := hline
      rcases Nat.lt_or_ge i (feed + 1) with hhere | hlater
      · intro j byte hsame hbyte
        -- The line feeds before and at the end of this line keep `j` on it.
        have hbelow : first ≤ j := by
          rcases hfirst with hzero | ⟨before, rfl, hbefore⟩
          · omega
          · by_contra hlt
            exact hsame before (by omega) (by omega) hbefore
        have habove : j ≤ feed := by
          by_contra hgt
          exact hsame feed (by omega) (by omega) hfeed
        rcases Nat.lt_or_ge j feed with hlt | hge
        · have hany := hblank.any_eq_true hbelow hlt
          rw [hbyte] at hany
          exact isWhite_of_isBlankByte hany
        · rw [Nat.le_antisymm habove hge, hfeed] at hbyte
          cases hbyte
          rfl
      · exact ih (.inr ⟨feed, rfl, hfeed⟩) hlater

section

variable {source : Source} {statement line : Span}

/-- A line of its own has nothing of a neighbour. -/
theorem OwnLine.sameLine (h : source.OwnLine statement line)
    (hlt : statement.start < statement.stop)
    (hlast : source.byte? (statement.stop - 1) ≠ some lineFeed) {i : Nat}
    (hstart : line.start ≤ i) (hstop : i < line.stop) :
    ∃ j, statement.start ≤ j ∧ j < statement.stop ∧ source.SameLine i j := by
  rcases Nat.lt_or_ge i statement.start with hbefore | hge
  · have hindent : source.AllBytes isIndent i statement.start :=
      fun k hi hk => h.before k (by omega) hk
    exact ⟨statement.start, Nat.le_refl _, hlt,
      sameLine_of_allBytes (Nat.le_of_lt hbefore) hindent rfl⟩
  · rcases Nat.lt_or_ge i statement.stop with hin | hafter
    · exact ⟨i, hge, hin, fun k hi hk => by omega⟩
    · -- Behind the statement the last byte of the line is the only line feed.
      refine ⟨statement.stop - 1, by omega, by omega, ?_⟩
      obtain ⟨last, hle, hindent, hbreak⟩ := h.after
      intro k hk hi hfeed
      rcases Nat.lt_or_ge k statement.stop with hown | hown
      · have hend : k = statement.stop - 1 := by omega
        exact hlast (hend ▸ hfeed)
      · rcases Nat.lt_or_ge k last with hin | hout
        · have hany := hindent.any_eq_true hown hin
          rw [hfeed] at hany
          exact absurd hany (by decide)
        · exact hbreak.byte?_ne hout (by omega) hfeed

end

/-! ## Statements that do not end with a line feed -/

section

variable {source : Source} {statement : Span}

theorem not_afterFeed_stop (hlast : source.byte? (statement.stop - 1) ≠ some lineFeed) :
    ¬ source.AfterFeed statement.stop := by
  rintro ⟨feed, hstop, hfeed⟩
  rw [hstop] at hlast
  exact hlast hfeed

/-- Such a statement is deleted with whole lines just if it has a line of its own. -/
theorem wholeLine_statementLine_iff (hlt : statement.start < statement.stop)
    (hsize : statement.stop ≤ source.size)
    (hlast : source.byte? (statement.stop - 1) ≠ some lineFeed) :
    source.WholeLine (source.statementLine statement) ↔
      ∃ line, source.OwnLine statement line := by
  constructor
  · intro hwhole
    by_contra hnone
    rw [statementLine_eq_self (by omega) hsize (not_exists.mp hnone)] at hwhole
    -- Deleted alone, it can be a line only as the last one, and then that is its own.
    rcases hwhole.2 with hfeed | hend
    · exact not_afterFeed_stop hlast hfeed
    · refine hnone ⟨statement, ⟨Nat.le_refl _, hwhole.1, ?_, source.size, hsize, ?_, ?_⟩⟩
      · exact fun k hfirst hlast => by omega
      · exact fun k hfirst hlast => by omega
      · rw [hend]
        exact .ending
  · rintro ⟨line, hown⟩
    rw [statementLine_eq_of_ownLine (by omega) hown]
    exact hown.wholeLine

theorem statementLines_of_afterFeed (h : source.AfterFeed (source.statementLine statement).stop) :
    source.statementLines statement = ⟨(source.statementLine statement).start,
      source.skipBlankLines (source.statementLine statement).stop⟩ := by
  simp only [statementLines, isLineStart_iff.mpr (.inr h), if_true]

theorem statementLines_eq_statementLine (hpos : 0 < (source.statementLine statement).stop)
    (h : ¬ source.AfterFeed (source.statementLine statement).stop) :
    source.statementLines statement = source.statementLine statement := by
  have hstart : source.isLineStart (source.statementLine statement).stop = false := by
    rw [← Bool.not_eq_true, isLineStart_iff, not_or]
    exact ⟨Nat.ne_of_gt hpos, h⟩
  simp only [statementLines, hstart, Bool.false_eq_true, if_false]

/-- Every byte that goes is on a line of the statement, or on a blank one. -/
theorem own_or_blank_of_statementLines (hlt : statement.start < statement.stop)
    (hsize : statement.stop ≤ source.size)
    (hlast : source.byte? (statement.stop - 1) ≠ some lineFeed) {i : Nat}
    (hstart : (source.statementLines statement).start ≤ i)
    (hstop : i < (source.statementLines statement).stop) :
    (∃ j, statement.start ≤ j ∧ j < statement.stop ∧ source.SameLine i j) ∨
      source.OnBlankLine i := by
  have hgrown : source.Grown statement (source.statementLine statement) :=
    grown_statementLine (by omega)
  have hpos := hgrown.le_stop
  by_cases hown : ∃ line, source.OwnLine statement line
  · obtain ⟨line, hown⟩ := hown
    have hline := statementLine_eq_of_ownLine (by omega) hown
    by_cases hfeed : source.AfterFeed line.stop
    · rw [statementLines_of_afterFeed (hline ▸ hfeed), hline] at hstart hstop
      rcases Nat.lt_or_ge i line.stop with hin | hout
      · exact .inl (hown.sameLine hlt hlast hstart hin)
      · exact .inr (onBlankLine_of_run (.inr hfeed) (source.reflTransGen_skipBlankLines _) hout hstop)
    · rw [statementLines_eq_statementLine (by omega) (hline ▸ hfeed), hline] at hstart hstop
      exact .inl (hown.sameLine hlt hlast hstart hstop)
  · have hself := statementLine_eq_self (by omega) hsize (not_exists.mp hown)
    have hfeed : ¬ source.AfterFeed (source.statementLine statement).stop := by
      rw [hself]
      exact not_afterFeed_stop hlast
    rw [statementLines_eq_statementLine (by omega) hfeed, hself] at hstart hstop
    exact .inl ⟨i, hstart, hstop, fun k hi hk => by omega⟩

end

end Source

end JestMigration
