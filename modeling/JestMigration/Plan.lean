/-
# `Plan` — what is to be done to one file

Migrating never touches a text.  It makes a plan: changes to carry out and
diagnostics to raise, in order.  Plans are lists, so they are joined by append
and taken apart by membership; carrying out the changes of a plan is the only
step that can fail.
-/
import JestMigration.ChangeSet
import JestMigration.Diagnostic

namespace JestMigration

/-- One step of a plan. -/
inductive Step where
  | change (change : Change)
  | report (diagnostic : Diagnostic)
  deriving DecidableEq

/-- Steps in order. -/
abbrev Plan := List Step

namespace Plan

/-- Puts a text in place of a node. -/
def replace (node : Node) (text : String) : Plan :=
  [.change (.replace node.span text)]

/-- Raises a finding at a node. -/
def warn (source : Source) (node : Node) (finding : Finding) : Plan :=
  [.report (.ofNode source node finding.message)]

/-- The changes of a plan, in order. -/
def changes (plan : Plan) : List Change :=
  plan.filterMap fun
    | .change change => some change
    | .report _ => none

/-- The diagnostics of a plan, in order. -/
def diagnostics (plan : Plan) : List Diagnostic :=
  plan.filterMap fun
    | .change _ => none
    | .report diagnostic => some diagnostic

end Plan

end JestMigration
