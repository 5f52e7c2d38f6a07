/-
# `Context.Member` — uses of a destructured context

A callback may take its context apart: `({ok, is: equal, end}) => …`.  It is
converted only if every member has a rule and, `end` and `fail` apart, is only
ever called.  The first obstacle decides what is said instead; then nothing is
changed.
-/
import JestMigration.Context.Use
import JestMigration.Scope.Resolve

namespace JestMigration

namespace Context

/-- The name under which members of a destructured context are reported. -/
def contextName : String := "t"

/-- A use of a destructured member. -/
inductive MemberUse where
  /-- The member is called. -/
  | called (assertion : Assertion)
  /-- The member, `end` or `fail`, is handed on. -/
  | handedOn (reference : Node) (target : String)

namespace MemberUse

/-- What is done with a member at a reference; none if that is not supported. -/
def classify? (rule : Rule) (reference : Node) : Option MemberUse :=
  match callWithArguments? reference with
  | some call => some (.called ⟨call, reference, contextName, rule⟩)
  | none =>
    match rule.target with
    | .completionEnd => some (.handedOn reference completionName)
    | .completionFail => some (.handedOn reference (completionName ++ ".fail"))
    | _ => none

/-- The steps for one use. -/
def plan (source : Source) : MemberUse → Plan
  | .called assertion => assertion.plan source completionName
  | .handedOn reference target => renameReference source reference target

end MemberUse

/-- One member of the pattern: the method it takes and the identifier that is bound to it. -/
structure Member where
  method : String
  binder : Node

namespace Member

/-- Reads one element of the pattern; none for a default, a rest or a nested pattern. -/
def ofElement? (source : Source) (element : Node) : Option Member :=
  match element.kind with
  | .shorthandPattern => some ⟨element.text source, element⟩
  | .pairPattern =>
    match element.child? .key, element.child? .value with
    | some key, some value =>
      if key.kind = .propertyIdentifier ∧ value.kind = .identifier then
        some ⟨key.text source, value⟩
      else
        none
    | _, _ => none
  | _ => none

/-- The members of a pattern; none if one of its elements cannot be read. -/
def ofPattern? (source : Source) (pattern : Node) : Option (List Member) :=
  pattern.namedChildren.mapM (ofElement? source)

/-- The uses of a member at its references, or the plan instead if one is not supported. -/
def classifyAll (source : Source) (rule : Rule) : List Node → Except Plan (List MemberUse)
  | [] => .ok []
  | reference :: rest =>
    match MemberUse.classify? rule reference with
    | none => .error (Plan.warn source reference (.indirectUse contextName rule.method))
    | some use =>
      match classifyAll source rule rest with
      | .ok uses => .ok (use :: uses)
      | .error plan => .error plan

/-- The rule of a member and its uses in a body, or the plan instead. -/
def uses (table : ScopeTable) (source : Source) (body : Node) (member : Member) :
    Except Plan (Rule × List MemberUse) :=
  match Rule.find? member.method with
  | none => .error (Plan.warn source member.binder (.unsupportedMember contextName member.method))
  | some rule =>
    match table.declaredAt? member.binder with
    | none => .error []
    | some binding =>
      match classifyAll source rule (table.references source body binding) with
      | .ok uses => .ok (rule, uses)
      | .error plan => .error plan

/-- The rules and uses of all members in order, or the plan instead. -/
def usesAll (table : ScopeTable) (source : Source) (body : Node) :
    List Member → Except Plan (List (Rule × List MemberUse))
  | [] => .ok []
  | member :: rest =>
    match member.uses table source body with
    | .error plan => .error plan
    | .ok first =>
      match usesAll table source body rest with
      | .ok others => .ok (first :: others)
      | .error plan => .error plan

end Member

end Context

end JestMigration
