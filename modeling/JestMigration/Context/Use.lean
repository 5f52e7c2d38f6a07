/-
# `Context.Use` — how a callback uses its context

A callback's context is its first parameter.  `Use.classify` says what is done
with it at one reference; from that follow the steps of the plan, whether the
callback needs a completion callback, and whether the parameter has to stay.
-/
import JestMigration.Assertion

namespace JestMigration

namespace Context

/-- The name of the completion callback. -/
def completionName : String := "done"

/-- The call with an argument list whose callee is the node. -/
def callWithArguments? (node : Node) : Option Node :=
  match node.callOf? with
  | some call => if call.arguments?.isSome then some call else none
  | none => none

/-- Puts a text in place of a reference; a shorthand property keeps its key. -/
def renameReference (source : Source) (reference : Node) (target : String) : Plan :=
  if reference.kind = .shorthandProperty then
    Plan.replace reference (reference.text source ++ ": " ++ target)
  else
    Plan.replace reference target

/-- What is done with the context at one reference `t`. -/
inductive Use where
  /-- A call `t.m(…)` with a rule for `m`. -/
  | assertion (call member : Node) (rule : Rule)
  /-- A call `t.m(…)` without a rule for `m`. -/
  | unmapped (call : Node) (method : String)
  /-- The value `t.end`. -/
  | endValue (member : Node)
  /-- The value `t.fail`. -/
  | failValue
  /-- A call `t.context.m(…)`. -/
  | contextCall (member : Node)
  /-- Any other access to `t.context`. -/
  | contextAccess
  /-- Any other access to a member. -/
  | property
  /-- The context itself, handed on or stored. -/
  | whole

namespace Use

/-- What a member that is not called stands for. -/
def ofValue (member : Node) (name : String) : Use :=
  if name = "end" then .endValue member
  else if name = "fail" then .failValue
  else if name = "context" then
    match member.memberOf?.bind Node.callOf? with
    | some _ => .contextCall member
    | none => .contextAccess
  else .property

/-- What is done with the context at a reference. -/
def classify (source : Source) (reference : Node) : Use :=
  match reference.memberOf? with
  | none => .whole
  | some member =>
    match member.propertyName? source with
    | none => .property
    | some name =>
      match callWithArguments? member with
      | some call =>
        match Rule.find? name with
        | some rule => .assertion call member rule
        | none => .unmapped call name
      | none => ofValue member name

/-- Does the use call for a completion callback? -/
def needsCompletion : Use → Bool
  | .assertion _ _ rule => rule.target.usesCompletion
  | .endValue _ | .failValue => true
  | _ => false

/-- Does the use need the parameter to stay? -/
def keepsParameter : Use → Bool
  | .unmapped .. | .property | .whole => true
  | _ => false

/-- Keeps what is left of the context bound when its parameter is renamed. -/
def follow (source : Source) (completion : Bool) (reference : Node) : Plan :=
  if completion then renameReference source reference completionName else []

/-- The steps for one use of the context called `context`. -/
def plan (source : Source) (context : String) (completion : Bool) (reference : Node) : Use → Plan
  | .assertion call member rule =>
    Assertion.plan source ⟨call, member, context, rule⟩ completionName
  | .unmapped call method =>
    Plan.warn source call (.unsupportedMember context method) ++ follow source completion reference
  | .endValue member => Plan.replace member completionName
  | .failValue => Plan.replace reference completionName
  | .contextCall member => Plan.replace member "context"
  | .contextAccess | .property | .whole => follow source completion reference

end Use

end Context

end JestMigration
