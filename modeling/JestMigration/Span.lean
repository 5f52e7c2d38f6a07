/-
# `Span` — half-open byte ranges

Every place in a source text is a pair of byte offsets, the first included and
the second not.  Two spans are disjoint, nested, or they overlap partially;
only the last kind is a conflict when both are to be edited.
-/

namespace JestMigration

/-- A half-open range of byte offsets. -/
structure Span where
  start : Nat
  stop : Nat
  deriving DecidableEq

namespace Span

/-- A span is empty when it begins where it ends. -/
def isEmpty (s : Span) : Bool :=
  s.start == s.stop

/-- A span contains every span that begins and ends within its bounds, itself included. -/
def contains (outer inner : Span) : Bool :=
  decide (outer.start ≤ inner.start) && decide (inner.stop ≤ outer.stop)

/-- Two spans overlap partially when they share bytes and neither contains the other. -/
def overlaps (a b : Span) : Bool :=
  decide (a.start < b.stop) && decide (b.start < a.stop) && !a.contains b && !b.contains a

/-- Spans are ordered by where they begin, then by where they end. -/
instance : Ord Span where
  compare a b := (compare a.start b.start).then (compare a.stop b.stop)

/-- The interval as it is shown to a reader. -/
def render (s : Span) : String :=
  s!"[{s.start}, {s.stop})"

theorem contains_iff {outer inner : Span} :
    outer.contains inner = true ↔ outer.start ≤ inner.start ∧ inner.stop ≤ outer.stop := by
  simp [contains]

@[simp] theorem contains_self (s : Span) : s.contains s = true := by
  simp [contains]

theorem contains_trans {a b c : Span} (hab : a.contains b = true) (hbc : b.contains c = true) :
    a.contains c = true := by
  rw [contains_iff] at *
  omega

theorem contains_antisymm {a b : Span} (hab : a.contains b = true) (hba : b.contains a = true) :
    a = b := by
  rw [contains_iff] at *
  cases a
  cases b
  simp only at hab hba
  rw [mk.injEq]
  omega

/-- Partial overlap has no direction. -/
theorem overlaps_comm (a b : Span) : a.overlaps b = b.overlaps a := by
  simp only [overlaps, Bool.and_comm, Bool.and_left_comm, Bool.and_assoc]

/-- A span never overlaps itself partially. -/
@[simp] theorem overlaps_self (s : Span) : s.overlaps s = false := by
  simp [overlaps]

end Span

end JestMigration
