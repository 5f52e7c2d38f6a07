/-
# `Modifier` — chains such as `test.serial.skip` and their target call

A registration is written as a member chain on the test function.  `normalize`
reads the chain from left to right and reduces it to the call that registers
the same thing with Jest, or says why there is none.  Where `serial`, `skip`,
`only` and `cb` stand in the chain does not matter.
-/

namespace JestMigration

/-- A lifecycle hook of the target framework. -/
inductive Hook where
  | beforeAll
  | afterAll
  | beforeEach
  | afterEach
  deriving DecidableEq

namespace Hook

/-- The function that registers the hook. -/
def callee : Hook → String
  | .beforeAll => "beforeAll"
  | .afterAll => "afterAll"
  | .beforeEach => "beforeEach"
  | .afterEach => "afterEach"

/-- Hooks that run after a test or after all tests. -/
def isTeardown : Hook → Bool
  | .afterAll => true
  | .afterEach => true
  | .beforeAll => false
  | .beforeEach => false

end Hook

/-- One link of a registration chain. -/
inductive Modifier where
  | serial
  | skip
  | only
  | always
  | cb
  | todo
  | hook (lifecycle : Hook)
  | unknown (name : String)
  deriving DecidableEq

namespace Modifier

/-- Reads a property name as a modifier. -/
def ofName : String → Modifier
  | "serial" => .serial
  | "skip" => .skip
  | "only" => .only
  | "before" => .hook .beforeAll
  | "after" => .hook .afterAll
  | "beforeEach" => .hook .beforeEach
  | "afterEach" => .hook .afterEach
  | "always" => .always
  | "cb" => .cb
  | "todo" => .todo
  | name => .unknown name

/-- The property name a modifier is written as. -/
def name : Modifier → String
  | .serial => "serial"
  | .skip => "skip"
  | .only => "only"
  | .always => "always"
  | .cb => "cb"
  | .todo => "todo"
  | .hook .beforeAll => "before"
  | .hook .afterAll => "after"
  | .hook .beforeEach => "beforeEach"
  | .hook .afterEach => "afterEach"
  | .unknown name => name

end Modifier

/-- Which tests run: all, only the focused ones, or all but the skipped ones. -/
inductive Focus where
  | none
  | only
  | skip
  deriving DecidableEq

/-- What is registered with the target framework. -/
inductive TargetCall where
  | test (focus : Focus)
  | hook (lifecycle : Hook)
  | todo
  deriving DecidableEq

/-- The callee of the target registration. -/
def TargetCall.callee : TargetCall → String
  | .test .none => "test"
  | .test .only => "test.only"
  | .test .skip => "test.skip"
  | .hook lifecycle => lifecycle.callee
  | .todo => "test.todo"

/-- A chain reduced to its target call. -/
structure Normalized where
  target : TargetCall
  /-- Does the callback take a completion callback? -/
  completion : Bool
  deriving DecidableEq

/-- Why a chain has no target call. -/
inductive Unsupported where
  /-- A link that is not known where it stands.  The call is left as written. -/
  | unknownMethod (name : String)
  /-- A skipped hook.  The callee is kept, the callback is still converted. -/
  | skippedHook
  /-- A focused hook.  The callee is kept, the callback is still converted. -/
  | focusedHook
  deriving DecidableEq

/-- Only an unknown link keeps the callback from being converted. -/
def Unsupported.convertsCallback : Unsupported → Bool
  | .unknownMethod _ => false
  | .skippedHook => true
  | .focusedHook => true

namespace Modifier

/-- What has been seen of a chain so far. -/
structure Progress where
  hook : Option Hook := none
  skip : Bool := false
  only : Bool := false
  todo : Bool := false
  completion : Bool := false
  deriving DecidableEq

/-- Takes one more link into account.  `always` needs a teardown hook before it; a hook needs that
neither a hook nor `todo` is before it. -/
def Progress.step (seen : Progress) (modifier : Modifier) : Except Unsupported Progress :=
  match modifier with
  | .unknown name => .error (.unknownMethod name)
  | .serial => .ok seen
  | .skip => .ok { seen with skip := true }
  | .only => .ok { seen with only := true }
  | .cb => .ok { seen with completion := true }
  | .todo => .ok { seen with todo := true }
  | .always =>
    if seen.hook.any Hook.isTeardown then .ok seen else .error (.unknownMethod modifier.name)
  | .hook hook =>
    if seen.hook.isSome || seen.todo then .error (.unknownMethod modifier.name)
    else .ok { seen with hook := some hook }

/-- Reads the links of a chain in order. -/
def Progress.read (seen : Progress) : List Modifier → Except Unsupported Progress
  | [] => .ok seen
  | modifier :: rest =>
    match seen.step modifier with
    | .ok seen => seen.read rest
    | .error reason => .error reason

/-- The target call of a chain that has been read to its end. -/
def Progress.finish (seen : Progress) : Except Unsupported Normalized :=
  match seen.hook with
  | some hook =>
    if seen.skip then .error .skippedHook
    else if seen.only then .error .focusedHook
    else .ok ⟨.hook hook, seen.completion⟩
  | none =>
    if seen.todo then .ok ⟨.todo, false⟩
    else if seen.skip then .ok ⟨.test .skip, seen.completion⟩
    else if seen.only then .ok ⟨.test .only, seen.completion⟩
    else .ok ⟨.test .none, seen.completion⟩

/-- Reduces a chain to its target call. -/
def normalize (chain : List Modifier) : Except Unsupported Normalized :=
  match Progress.read {} chain with
  | .ok seen => seen.finish
  | .error reason => .error reason

end Modifier

end JestMigration
