/-
# `Callback` — the plan for a registration's callback

The context parameter and its uses in the body are converted together.  If a
use needs a completion callback, the parameter becomes one; if no use is left
that needs the context, the parameter goes; else it stays.  With further
parameters after it, it stays too, since removing it would shift them.
-/
import JestMigration.Context.Member

namespace JestMigration

namespace Callback

open Context

/-- The pattern of a parameter, without its type. -/
def patternOf (parameter : Node) : Node :=
  match parameter.kind with
  | .requiredParameter | .optionalParameter => (parameter.child? .pattern).getD parameter
  | _ => parameter

/-- Takes the context parameter out, if it is the only one. -/
def removeParameter (source : Source) (callback : Node) : Plan :=
  match callback.child? .parameter with
  | some parameter => Plan.replace parameter "()"
  | none =>
    match callback.child? .parameters with
    | none => []
    | some list =>
      match callback.parameters with
      | [] => []
      | [_] => Plan.replace list "()"
      | _ :: _ :: _ => Plan.warn source list .extraParameters

/-- The references to a named context with what is done at each. -/
def namedUses (table : ScopeTable) (source : Source) (body : Node) (binding : BindingId) :
    List (Node × Use) :=
  (table.references source body binding).map fun reference =>
    (reference, Use.classify source reference)

/-- The plan for a context that is a plain name. -/
def namedPlan (table : ScopeTable) (source : Source) (callback first pattern : Node)
    (completion : Bool) : Plan :=
  match table.declaredAt? pattern, callback.child? .body with
  | some binding, some body =>
    let uses := namedUses table source body binding
    let completion := completion || uses.any fun use => use.2.needsCompletion
    let keep := uses.any fun use => use.2.keepsParameter
    let context := pattern.text source
    (uses.flatMap fun use => use.2.plan source context completion use.1) ++
      if completion then Plan.replace first completionName
      else if keep then []
      else removeParameter source callback
  | _, _ => []

/-- The plan for a context that is taken apart. -/
def destructuredPlan (table : ScopeTable) (source : Source) (callback first pattern : Node)
    (completion : Bool) : Plan :=
  match callback.child? .body with
  | none => []
  | some body =>
    match Member.ofPattern? source pattern with
    | none => Plan.warn source pattern .unsupportedPattern
    | some members =>
      match Member.usesAll table source body members with
      | .error plan => plan
      | .ok uses =>
        let completion := completion || uses.any fun use => use.1.target.usesCompletion
        (uses.flatMap fun use => use.2.flatMap (MemberUse.plan source)) ++
          if completion then Plan.replace first completionName
          else removeParameter source callback

/-- The plan for a callback.  `completion` says that it is registered as one that takes a completion
callback. -/
def plan (table : ScopeTable) (source : Source) (callback : Node) (completion : Bool) : Plan :=
  match callback.parameters with
  | [] => []
  | first :: _ =>
    let pattern := patternOf first
    match pattern.kind with
    | .identifier => namedPlan table source callback first pattern completion
    | .objectPattern => destructuredPlan table source callback first pattern completion
    | _ => []

end Callback

end JestMigration
