/-
# `Assertion` — one call of a context method

A call such as `t.is(a, b)`, or `is(a, b)` with a destructured context, is
replaced by the form its rule asks for.  Arguments become slots, so that what
is converted inside them stays converted; a missing argument is written as
`undefined` and reported.
-/
import JestMigration.Plan
import JestMigration.Syntax.Shape

namespace JestMigration

/-- A call of a context method for which there is a rule. -/
structure Assertion where
  call : Node
  /-- The callee: `t.is`, or `is` for a destructured context. -/
  callee : Node
  /-- The name under which the context is reported. -/
  context : String
  rule : Rule

namespace Assertion

/-- What stands for an argument that is not there. -/
def missingArgument : String := "undefined"

/-- The arguments of the call. -/
def arguments (assertion : Assertion) : List Node :=
  assertion.call.arguments?.getD []

/-- The argument at an index, as a slot. -/
def slot (arguments : List Node) (index : Nat) : Part :=
  match arguments[index]? with
  | some argument => .source argument.span
  | none => .text missingArgument

/-- `expect(…)` of the first argument. -/
def subject (arguments : List Node) : List Part :=
  [.text "expect(", slot arguments 0, .text ")"]

/-- `.not` for a negated rule. -/
def negation (rule : Rule) : List Part :=
  if rule.negated then [.text ".not"] else []

/-- What the matcher is called with. -/
def expected (arguments : List Node) : Expected → List Part
  | .nothing => []
  | .literal text => [.text text]
  | .secondArgument => [slot arguments 1]

/-- The matcher for something thrown: with the second argument where there is one. -/
def thrown (arguments : List Node) : List Part :=
  match arguments[1]? with
  | some error => [.text ".toThrowError(", .source error.span, .text ")"]
  | none => [.text ".toThrow()"]

/-- The message of a snapshot: the last argument after the value that is not an object. -/
def snapshotMessage (arguments : List Node) : List Part :=
  match (arguments.drop 1).reverse.find? fun argument => argument.kind != .object with
  | some message => [.source message.span]
  | none => []

/-- Where a statement can be dropped without leaving a gap. -/
def isStatementList : Kind → Bool
  | .statementBlock | .program | .switchCase | .switchDefault => true
  | _ => false

/-- The statement that consists of the call alone, if it stands in a list of statements. -/
def statement? (call : Node) : Option Node :=
  match call.parent? with
  | some statement =>
    if statement.kind = .expressionStatement ∧
        (statement.parent?.any fun list => isStatementList list.kind) = true then
      some statement
    else
      none
  | none => none

/-- Takes a call out: as a statement where it is one, else by a value in its place. -/
def removal (call : Node) : Change :=
  match statement? call with
  | some statement => .deleteStatement statement.span
  | none => .replace call.span missingArgument

/-- The change that gives a call its target form. -/
def change (assertion : Assertion) (completion : String) : Change :=
  let arguments := assertion.arguments
  let rule := assertion.rule
  let span := assertion.call.span
  match rule.target with
  | .matcher name value =>
    .template span
      (subject arguments ++ negation rule ++ [.text ".", .text name, .text "("] ++
        expected arguments value ++ [.text ")"])
  | .throws =>
    .template span (subject arguments ++ negation rule ++ thrown arguments)
  | .assertions => .template span [.text "expect.assertions(", slot arguments 0, .text ")"]
  | .snapshot =>
    .template span
      (subject arguments ++ [.text ".toMatchSnapshot("] ++ snapshotMessage arguments ++ [.text ")"])
  | .remove => removal assertion.call
  | .completionFail => .replace assertion.callee.span (completion ++ ".fail")
  | .completionEnd => .replace assertion.callee.span completion

/-- Reports a call with too few arguments. -/
def arityPlan (source : Source) (assertion : Assertion) : Plan :=
  let rule := assertion.rule
  if 0 < rule.arity.missing assertion.arguments.length then
    Plan.warn source assertion.call (.missingArguments assertion.context rule.method rule.arity)
  else
    []

/-- Converts the call, with `completion` as the name of the completion callback. -/
def plan (source : Source) (assertion : Assertion) (completion : String) : Plan :=
  assertion.arityPlan source ++ [.change (assertion.change completion)]

end Assertion

end JestMigration
