/-
# `Syntax.Listing` — trees written as text

A tree is written as its nodes in preorder, one a line: the kind, `1` for a
named node and `0` for a token, the bytes where it starts and stops, the field
under which its parent holds it or a dash, and the number of its children, with
tabs between them.
-/
import JestMigration.Syntax.Tree

namespace JestMigration

/-- Reads one line of a listing: a node and the number of its children. -/
def Label.ofLine? (line : String) : Option (Label × Nat) :=
  match line.splitOn "\t" with
  | [kind, named, start, stop, field, count] => do
    let start ← start.toNat?
    let stop ← stop.toNat?
    let count ← count.toNat?
    some (⟨Kind.ofName kind, named == "1", ⟨start, stop⟩, Field.ofName? field⟩, count)
  | _ => none

/-- Reads a tree from its listing. -/
def Tree.ofText? (text : String) : Option Tree :=
  let lines := (text.splitOn "\n").filter (· != "")
  (lines.mapM Label.ofLine?).bind Tree.ofListing?

end JestMigration
