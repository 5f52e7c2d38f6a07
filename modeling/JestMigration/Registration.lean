/-
# `Registration` — a call that registers a test or a hook

`test.serial.skip('title', t => …)`: a call whose callee is a member chain on
the test function.  Its callee becomes the target call's, its callback is
converted.  A chain with an unknown link is left as it is; a skipped or focused
hook keeps its callee.
-/
import JestMigration.Callback
import JestMigration.Framework

namespace JestMigration

/-- A call that registers a test or a hook. -/
structure Registration where
  call : Node
  callee : Node
  modifiers : List Modifier
  callback? : Option Node

namespace Registration

/-- Reads a call as a registration. -/
def ofCall? (table : ScopeTable) (source : Source) (framework : Framework) (call : Node) :
    Option Registration :=
  match call.child? .function, call.arguments? with
  | some callee, some arguments =>
    match callee.memberChain? source with
    | some (root, names) =>
      if framework.refersTo table (root.text source) (table.resolve? source root) then
        some {
          call, callee
          modifiers := names.map Modifier.ofName
          callback? := arguments.reverse.find? fun argument => argument.kind.isCallbackLiteral }
      else
        none
    | none => none
  | _, _ => none

/-- The plan for the callback, if there is one. -/
def callbackPlan (table : ScopeTable) (source : Source) (registration : Registration)
    (completion : Bool) : Plan :=
  match registration.callback? with
  | some callback => Callback.plan table source callback completion
  | none => []

/-- The plan for a registration. -/
def plan (table : ScopeTable) (source : Source) (registration : Registration) : Plan :=
  match Modifier.normalize registration.modifiers with
  | .ok normalized =>
    Plan.replace registration.callee normalized.target.callee ++
      registration.callbackPlan table source normalized.completion
  | .error reason =>
    Plan.warn source registration.call (.unsupportedChain reason) ++
      if reason.convertsCallback then
        registration.callbackPlan table source (registration.modifiers.contains .cb)
      else
        []

end Registration

end JestMigration
