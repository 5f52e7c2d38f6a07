/-
# `Proofs.Scope.Declarations` — which node binds which name, and where

The scope table is filled node by node; what a node contributes can be read off
the node itself:

  * `scopeKind?`: the kind of scope that it opens;
  * `ownNames`: the names that it binds in the scope it opens, such as
    parameters;
  * `blockNames`: the names that it binds in the scope around it;
  * `hoistedNames`: the names that it binds in the function around it.

Entering a node does these four things and nothing else (`enter_eq`).  `Binds`
says from this which names are bound in the scope of a node, without the table.
-/
import JestMigration.Proofs.Syntax.Position
import JestMigration.Scope.Build

namespace JestMigration

namespace Node

/-! ## Declared names stand inside their declaration -/

theorem within_of_child? {node child : Node} {field : Field} (h : node.child? field = some child) :
    Within node child :=
  .of_mem_children (mem_children_of_child? h)

theorem within_of_mem_namedChildren {node child : Node} (h : child ∈ node.namedChildren) :
    Within node child :=
  .of_mem_children (mem_children_of_mem_namedChildren h)

/-- A name of a pattern is the pattern itself, or a name of one of its children. -/
theorem patternNames_cases {pattern name : Node} (h : name ∈ pattern.patternNames) :
    name = pattern ∨ ∃ child ∈ pattern.children, name ∈ child.patternNames := by
  unfold patternNames at h
  split at h
  case h_1 | h_2 | h_3 => exact .inl (List.mem_singleton.mp h)
  case h_4 | h_5 | h_6 =>
    obtain ⟨child, _, hname⟩ := List.mem_flatMap.mp h
    exact .inr ⟨child.1, mem_children_of_mem_namedChildren child.2, hname⟩
  case h_12 => exact absurd h List.not_mem_nil
  all_goals
    split at h
    · rename_i child hchild
      exact .inr ⟨child, mem_children_of_child? hchild, h⟩
    · exact absurd h List.not_mem_nil

theorem within_of_mem_patternNames {pattern name : Node} (h : name ∈ pattern.patternNames) :
    Within pattern name := by
  rcases patternNames_cases h with rfl | ⟨child, hmem, hname⟩
  · exact .self
  · exact (Within.of_mem_children hmem).trans (within_of_mem_patternNames hname)
termination_by pattern.tree.size
decreasing_by exact size_lt_of_mem_children hmem

theorem within_of_mem_namesAt {node name : Node} {field : Field} (h : name ∈ node.namesAt field) :
    Within node name := by
  unfold namesAt at h
  split at h
  · rename_i pattern hpattern
    exact (within_of_child? hpattern).trans (within_of_mem_patternNames h)
  · exact absurd h List.not_mem_nil

theorem within_of_mem_parameterNames {function name : Node} (h : name ∈ function.parameterNames) :
    Within function name := by
  rcases List.mem_append.mp h with h | h
  · exact within_of_mem_namesAt h
  · split at h
    · rename_i list hlist
      obtain ⟨parameter, hparameter, hname⟩ := List.mem_flatMap.mp h
      exact ((within_of_child? hlist).trans (within_of_mem_namedChildren hparameter)).trans
        (within_of_mem_patternNames hname)
    · exact absurd h List.not_mem_nil

theorem within_of_mem_declaratorNames {declaration name : Node}
    (h : name ∈ declaration.declaratorNames) : Within declaration name := by
  obtain ⟨declarator, hdeclarator, hname⟩ := List.mem_flatMap.mp h
  exact (within_of_mem_namedChildren (List.mem_filter.mp hdeclarator).1).trans
    (within_of_mem_namesAt hname)

theorem within_of_importedAs? {specifier name : Node} (h : specifier.importedAs? = some name) :
    Within specifier name := by
  rcases Option.or_eq_some_iff.mp h with h | ⟨_, h⟩
  · exact within_of_child? h
  · exact within_of_child? h

/-- A name in an import is a name of the part, of its new name, or of one of its children. -/
theorem importedNames_cases {part name : Node} (h : name ∈ part.importedNames) :
    (∃ binding, Within part binding ∧ name ∈ binding.patternNames) ∨
      ∃ child ∈ part.children, name ∈ child.importedNames := by
  unfold importedNames at h
  split at h
  case h_4 => exact .inl ⟨part, .self, h⟩
  case h_5 =>
    split at h
    · rename_i binding hbinding
      exact .inl ⟨binding, within_of_importedAs? hbinding, h⟩
    · exact absurd h List.not_mem_nil
  case h_6 => exact absurd h List.not_mem_nil
  all_goals
    obtain ⟨child, _, hname⟩ := List.mem_flatMap.mp h
    exact .inr ⟨child.1, mem_children_of_mem_namedChildren child.2, hname⟩

theorem within_of_mem_importedNames {part name : Node} (h : name ∈ part.importedNames) :
    Within part name := by
  rcases importedNames_cases h with ⟨binding, hbinding, hname⟩ | ⟨child, hmem, hname⟩
  · exact hbinding.trans (within_of_mem_patternNames hname)
  · exact (Within.of_mem_children hmem).trans (within_of_mem_importedNames hname)
termination_by part.tree.size
decreasing_by exact size_lt_of_mem_children hmem

theorem mem_importNames_iff {statement name : Node} :
    name ∈ statement.importNames ↔ ∃ part ∈ statement.namedChildren, name ∈ part.importedNames := by
  simp only [importNames, List.mem_flatMap, List.mem_reverse]

theorem within_of_mem_importNames {statement name : Node} (h : name ∈ statement.importNames) :
    Within statement name := by
  obtain ⟨part, hpart, hname⟩ := mem_importNames_iff.mp h
  exact (within_of_mem_namedChildren hpart).trans (within_of_mem_importedNames hname)

end Node

namespace Node

/-! ## The nodes above -/

/-- The nodes that a list of enclosing subtrees stands for, the nearest first. -/
def enclosing : List (Nat × Tree) → List Node
  | [] => []
  | (id, tree) :: above => ⟨id, tree, above⟩ :: enclosing above

/-- The nodes above a node, the nearest first. -/
def ancestors (node : Node) : List Node :=
  enclosing node.above

theorem map_id_enclosing (above : List (Nat × Tree)) :
    (enclosing above).map Node.id = above.map Prod.fst := by
  induction above with
  | nil => rfl
  | cons entry rest ih => exact congrArg (List.cons entry.1) ih

theorem ancestors_of_mem_children {node child : Node} (h : child ∈ node.children) :
    child.ancestors = node :: node.ancestors := by
  rw [ancestors, above_of_mem_children h]
  rfl

/-! ## What a node contributes -/

/-- The kind of scope that a node opens.  The topmost node opens that of the program, whatever it
is; the block of a function shares the scope of the function. -/
def scopeKind? (node : Node) : Option ScopeKind :=
  match node.parent? with
  | none => some .program
  | some parent =>
    if node.kind.isFunction then some .function
    else
      match node.kind with
      | .statementBlock => if parent.kind.isFunction then none else some .block
      | .forStatement | .forInStatement | .switchBody | .classStaticBlock | .catchClause =>
        some .block
      | _ => none

/-- Does the loop declare a variable with `var`?  None if it declares none. -/
def declaresVar? (source : Source) (loop : Node) : Option Bool :=
  (loop.child? .kind).map fun kind => kind.text source == "var"

/-- The names that a node binds in the scope that it opens. -/
def ownNames (source : Source) (node : Node) : List Node :=
  match node.kind with
  | .functionExpression | .function | .generatorFunction =>
    node.namesAt .name ++ node.parameterNames
  | .functionDeclaration | .generatorDeclaration | .arrowFunction | .methodDefinition =>
    node.parameterNames
  | .forInStatement =>
    match node.declaresVar? source with
    | some false => node.namesAt .left
    | _ => []
  | .catchClause => node.namesAt .parameter
  | _ => []

/-- The names that a node binds in the scope around it. -/
def blockNames (node : Node) : List Node :=
  match node.kind with
  | .functionDeclaration | .generatorDeclaration | .classDeclaration => node.namesAt .name
  | .lexicalDeclaration => node.declaratorNames
  | .importStatement => node.importNames
  | _ => []

/-- The names that a node binds in the function around it. -/
def hoistedNames (source : Source) (node : Node) : List Node :=
  match node.kind with
  | .variableDeclaration => node.declaratorNames
  | .forInStatement =>
    match node.declaresVar? source with
    | some true => node.namesAt .left
    | _ => []
  | _ => []

theorem within_of_mem_ownNames {source : Source} {node name : Node}
    (h : name ∈ node.ownNames source) : Within node name := by
  unfold ownNames at h
  split at h
  case h_1 | h_2 | h_3 =>
    rcases List.mem_append.mp h with h | h
    · exact within_of_mem_namesAt h
    · exact within_of_mem_parameterNames h
  case h_4 | h_5 | h_6 | h_7 => exact within_of_mem_parameterNames h
  case h_8 =>
    split at h
    · exact within_of_mem_namesAt h
    · exact absurd h List.not_mem_nil
  case h_9 => exact within_of_mem_namesAt h
  case h_10 => exact absurd h List.not_mem_nil

theorem within_of_mem_blockNames {node name : Node} (h : name ∈ node.blockNames) :
    Within node name := by
  unfold blockNames at h
  split at h
  case h_1 | h_2 | h_3 => exact within_of_mem_namesAt h
  case h_4 => exact within_of_mem_declaratorNames h
  case h_5 => exact within_of_mem_importNames h
  case h_6 => exact absurd h List.not_mem_nil

theorem within_of_mem_hoistedNames {source : Source} {node name : Node}
    (h : name ∈ node.hoistedNames source) : Within node name := by
  unfold hoistedNames at h
  split at h
  case h_1 => exact within_of_mem_declaratorNames h
  case h_2 =>
    split at h
    · exact within_of_mem_namesAt h
    · exact absurd h List.not_mem_nil
  case h_3 => exact absurd h List.not_mem_nil

/-- A node with names of its own opens a scope for them. -/
theorem scopeKind?_of_mem_ownNames {source : Source} {node name : Node}
    (h : name ∈ node.ownNames source) : ∃ kind, node.scopeKind? = some kind := by
  unfold ownNames at h
  unfold scopeKind?
  cases node.parent? with
  | none => exact ⟨_, rfl⟩
  | some parent => split at h <;> simp_all [Kind.isFunction]

/-- A node with names for the function around it opens no function. -/
theorem scopeKind?_of_mem_hoistedNames {source : Source} {node name parent : Node}
    (h : name ∈ node.hoistedNames source) (hparent : node.parent? = some parent) :
    node.scopeKind? = none ∨ node.scopeKind? = some .block := by
  unfold hoistedNames at h
  simp only [scopeKind?, hparent]
  split at h <;> simp_all [Kind.isFunction]

/-- The visit comes to the node: it is no part of an import. -/
def isVisited (node : Node) : Bool :=
  node.ancestors.all fun above => above.kind != .importStatement

/-- `Binds source tree holder name`: the scope that `holder` opens binds `name`, which is a name of
its own, a name from a declaration for which it is the nearest scope, or a name from a declaration
for which it is the nearest function. -/
inductive Binds (source : Source) (tree : Tree) (holder : Node) : Node → Prop
  | own {name : Node} : holder.isVisited = true → name ∈ holder.ownNames source →
      Binds source tree holder name
  | block {declaration name : Node} : Within (root tree) declaration →
      declaration.isVisited = true → name ∈ declaration.blockNames →
      (declaration.ancestors.find? fun above => above.scopeKind?.isSome) = some holder →
      Binds source tree holder name
  | hoisted {declaration name : Node} : Within (root tree) declaration →
      declaration.isVisited = true → name ∈ declaration.hoistedNames source →
      (declaration.ancestors.find? fun above =>
        above.scopeKind?.any fun kind => kind != .block) = some holder →
      Binds source tree holder name

end Node

namespace ScopeTable

/-- Opens the scope of a node inside another, if it opens one. -/
def opening (table : ScopeTable) (node : Node) (scope : ScopeId) : ScopeTable × ScopeId :=
  match node.scopeKind? with
  | some kind => table.openInside node kind scope
  | none => (table, scope)

/-- A node binds names around it, opens its scope, binds names there, and in the function around. -/
def contribute (table : ScopeTable) (source : Source) (node : Node) (scope : ScopeId) :
    ScopeTable × ScopeId :=
  let opened := (table.declareAll source scope node.blockNames).opening node scope
  let own := opened.1.declareAll source opened.2 (node.ownNames source)
  (own.declareAll source (own.functionScope opened.2) (node.hoistedNames source), opened.2)

/-- Entering a node is taking in what it contributes. -/
theorem enter_eq {node parent : Node} (hparent : node.parent? = some parent) (table : ScopeTable)
    (source : Source) (scope : ScopeId) :
    table.enter source node scope = table.contribute source node scope := by
  unfold enter
  split <;> rename_i hkind
  case h_9 =>
    have hopens : node.scopeKind? = if parent.kind.isFunction then none else some .block := by
      simp only [Node.scopeKind?, hparent, hkind]
      rfl
    simp only [contribute, opening, hopens, Node.blockNames, Node.ownNames, Node.hoistedNames, hkind,
      hparent, Option.any_some]
    cases parent.kind.isFunction <;> rfl
  case h_13 =>
    have hopens : node.scopeKind? = some .block := by
      simp only [Node.scopeKind?, hparent, hkind]
      rfl
    simp only [contribute, opening, hopens, Node.blockNames, Node.ownNames, Node.hoistedNames, hkind,
      Node.declaresVar?, loopScope?]
    generalize node.child? .kind = kind?
    cases kind? with
    | none => rfl
    | some kind =>
        simp only [Option.map_some]
        cases kind.text source == "var" <;> rfl
  case h_18 =>
    have hopens : node.scopeKind? = none := by
      simp only [Node.scopeKind?, hparent, Kind.isFunction]
      split <;> simp_all
    have hblock : node.blockNames = [] := by
      unfold Node.blockNames
      split <;> simp_all
    have hown : node.ownNames source = [] := by
      unfold Node.ownNames
      split <;> simp_all
    have hhoisted : node.hoistedNames source = [] := by
      unfold Node.hoistedNames
      split <;> simp_all
    simp only [contribute, opening, hopens, hblock, hown, hhoisted]
    rfl
  all_goals
    simp only [contribute, opening, Node.blockNames, Node.ownNames, Node.hoistedNames,
      Node.scopeKind?, hparent, hkind]
    rfl

end ScopeTable

end JestMigration
