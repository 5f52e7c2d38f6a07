/-
# `Rule` — what becomes of each method of the test context

The table `Rule.all` gives, for every context method that is understood, the
shape of the call that takes its place and the number of arguments it needs.
-/

namespace JestMigration

/-- How many arguments a method takes. -/
inductive Arity where
  /-- That many values; what follows them is a message without a place in the target. -/
  | exactly (count : Nat)
  /-- That many values; what follows them is used by the target. -/
  | atLeast (count : Nat)
  | any
  deriving DecidableEq

namespace Arity

/-- How many arguments a call with `given` arguments lacks. -/
def missing : Arity → (given : Nat) → Nat
  | .exactly count, given => count - given
  | .atLeast count, given => count - given
  | .any, _ => 0

/-- A number of arguments in words. -/
def arguments (count : Nat) : String :=
  if count = 1 then "1 argument" else s!"{count} arguments"

/-- The requirement in words, as it follows the name of a method. -/
def describe : Arity → String
  | .exactly count => "should have " ++ arguments count
  | .atLeast count => "should have at least " ++ arguments count
  | .any => "accepts any arguments"

end Arity

/-- What the target matcher is called with. -/
inductive Expected where
  | nothing
  /-- The second argument of the assertion. -/
  | secondArgument
  | literal (text : String)
  deriving DecidableEq

/-- The shape of the target call. -/
inductive Target where
  /-- `expect(a).matcher(expected)` -/
  | matcher (name : String) (expected : Expected)
  /-- `toThrowError(b)` with a second argument, `toThrow()` without. -/
  | throws
  /-- `expect.assertions(n)` -/
  | assertions
  /-- `expect(v).toMatchSnapshot(message)` -/
  | snapshot
  /-- The call has no counterpart and goes. -/
  | remove
  /-- The completion callback's `fail`. -/
  | completionFail
  /-- The completion callback itself. -/
  | completionEnd
  deriving DecidableEq

/-- Targets that need a completion callback. -/
def Target.usesCompletion : Target → Bool
  | .completionFail => true
  | .completionEnd => true
  | _ => false

/-- One row of the table. -/
structure Rule where
  method : String
  target : Target
  arity : Arity
  negated : Bool := false
  deriving DecidableEq

namespace Rule

/-- A method that looks at its first argument only. -/
def unary (method matcher : String) (expected : Expected) : Rule :=
  ⟨method, .matcher matcher expected, .exactly 1, false⟩

/-- A method that compares its first argument with its second. -/
def binary (method matcher : String) (negated : Bool) : Rule :=
  ⟨method, .matcher matcher .secondArgument, .exactly 2, negated⟩

/-- The rules, one for each method. -/
def all : List Rule :=
  [ unary "ok" "toBeTruthy" .nothing,
    unary "truthy" "toBeTruthy" .nothing,
    unary "notOk" "toBeFalsy" .nothing,
    unary "falsy" "toBeFalsy" .nothing,
    unary "ifError" "toBeFalsy" .nothing,
    unary "error" "toBeFalsy" .nothing,
    unary "true" "toBe" (.literal "true"),
    unary "false" "toBe" (.literal "false"),
    binary "is" "toBe" false,
    binary "not" "toBe" true,
    binary "same" "toEqual" false,
    binary "deepEqual" "toEqual" false,
    binary "notSame" "toEqual" true,
    binary "notDeepEqual" "toEqual" true,
    binary "regex" "toMatch" false,
    binary "notRegex" "toMatch" true,
    ⟨"throws", .throws, .atLeast 1, false⟩,
    ⟨"notThrows", .throws, .atLeast 1, true⟩,
    ⟨"plan", .assertions, .exactly 1, false⟩,
    ⟨"snapshot", .snapshot, .atLeast 1, false⟩,
    ⟨"pass", .remove, .any, false⟩,
    ⟨"fail", .completionFail, .any, false⟩,
    ⟨"end", .completionEnd, .any, false⟩ ]

/-- The rule for a method. -/
def find? (method : String) : Option Rule :=
  all.find? fun rule => rule.method == method

/-- The rule found for a method is a rule for that method. -/
theorem method_of_find? {method : String} {rule : Rule} (h : find? method = some rule) :
    rule.method = method := by
  have := List.find?_some h
  simpa using this

end Rule

end JestMigration
