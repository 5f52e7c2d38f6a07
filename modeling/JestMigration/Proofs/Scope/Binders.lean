/-
# `Proofs.Scope.Binders` — from a declaration down to its names

Between a declaration and a name that it introduces there are patterns,
declarators and parts of imports, and the list of parameters if the declaration
is a function (`between_declares`).  No function stands there.  So a name among
the parameters of a function literal is bound at or below that literal, whatever
else has declared it (`exists_opener`).  A name of a declarator is declared once
(`eq_of_mem_declaratorNames`).
-/
import JestMigration.Proofs.Callback.Extent
import JestMigration.Proofs.Scope.Exact

namespace JestMigration

/-- What may stand between a declaration and a name that it introduces, the name included. -/
def Kind.isBinding : Kind → Bool
  | .identifier | .shorthandPattern | .typeIdentifier | .objectPattern | .arrayPattern
  | .restPattern | .pairPattern | .assignmentPattern | .objectAssignmentPattern
  | .requiredParameter | .optionalParameter | .variableDeclarator | .importStatement
  | .importClause | .namedImports | .namespaceImport | .importSpecifier => true
  | _ => false

theorem Kind.not_isBinding_of_isFunction {kind : Kind} (h : kind.isFunction = true) :
    kind.isBinding = false := by
  cases kind <;> simp_all [Kind.isFunction, Kind.isBinding]

theorem Kind.isFunction_of_isCallbackLiteral {kind : Kind} (h : kind.isCallbackLiteral = true) :
    kind.isFunction = true := by
  cases kind <;> simp_all [Kind.isFunction, Kind.isCallbackLiteral]

namespace Node

variable {source : Source} {declaration pattern name mid : Node}

/-! ## Patterns -/

theorem isBinding_of_mem_patternNames (h : name ∈ pattern.patternNames) :
    pattern.kind.isBinding = true := by
  unfold patternNames at h
  split at h
  case h_12 => exact absurd h List.not_mem_nil
  all_goals
    rename_i hkind
    rw [hkind]
    rfl

theorem between_patternNames {pattern : Node} (h : name ∈ pattern.patternNames)
    (hmid : Within pattern mid) (hname : Within mid name) : mid.kind.isBinding = true := by
  have hkind := isBinding_of_mem_patternNames h
  rcases patternNames_cases h with rfl | ⟨child, hmem, hchild⟩
  · rw [hname.antisymm hmid]
    exact hkind
  · rcases hmid.between_child hmem (within_of_mem_patternNames hchild) hname with rfl | hin
    · exact hkind
    · exact between_patternNames hchild hin hname
termination_by pattern.tree.size
decreasing_by exact size_lt_of_mem_children hmem

theorem between_namesAt {field : Field} (h : name ∈ declaration.namesAt field)
    (hmid : Within declaration mid) (hname : Within mid name) :
    mid = declaration ∨ mid.kind.isBinding = true := by
  unfold namesAt at h
  split at h
  · rename_i pattern hpattern
    exact (hmid.between_child (mem_children_of_child? hpattern) (within_of_mem_patternNames h)
      hname).imp_right fun hin => between_patternNames h hin hname
  · exact absurd h List.not_mem_nil

theorem between_parameterNames (h : name ∈ declaration.parameterNames)
    (hmid : Within declaration mid) (hname : Within mid name) :
    mid = declaration ∨ mid.kind.isBinding = true ∨ declaration.child? .parameters = some mid := by
  rcases List.mem_append.mp h with h | h
  · exact (between_namesAt h hmid hname).imp_right .inl
  · split at h
    · rename_i list hlist
      obtain ⟨parameter, hparameter, h⟩ := List.mem_flatMap.mp h
      have hmem := mem_children_of_mem_namedChildren hparameter
      have hin := within_of_mem_patternNames h
      rcases hmid.between_child (mem_children_of_child? hlist)
        ((Within.of_mem_children hmem).trans hin) hname with rfl | hmid
      · exact .inl rfl
      · rcases hmid.between_child hmem hin hname with rfl | hmid
        · exact .inr (.inr hlist)
        · exact .inr (.inl (between_patternNames h hmid hname))
    · exact absurd h List.not_mem_nil

theorem between_declaratorNames (h : name ∈ declaration.declaratorNames)
    (hmid : Within declaration mid) (hname : Within mid name) :
    mid = declaration ∨ mid.kind.isBinding = true := by
  obtain ⟨declarator, hdeclarator, h⟩ := List.mem_flatMap.mp h
  obtain ⟨hnamed, hkind⟩ := List.mem_filter.mp hdeclarator
  rcases hmid.between_child (mem_children_of_mem_namedChildren hnamed) (within_of_mem_namesAt h)
    hname with rfl | hmid
  · exact .inl rfl
  · rcases between_namesAt h hmid hname with rfl | hbinding
    · rw [beq_iff_eq] at hkind
      exact .inr (by rw [hkind]; rfl)
    · exact .inr hbinding

/-! ## Imports -/

theorem isBinding_of_mem_importedNames {part : Node} (h : name ∈ part.importedNames) :
    part.kind.isBinding = true := by
  unfold importedNames at h
  split at h
  case h_6 => exact absurd h List.not_mem_nil
  all_goals
    rename_i hkind
    rw [hkind]
    rfl

theorem between_importedAs? {specifier binding : Node} (hbinding : specifier.importedAs? = some binding)
    (h : name ∈ binding.patternNames) (hmid : Within specifier mid) (hname : Within mid name) :
    mid = specifier ∨ mid.kind.isBinding = true := by
  have hmem : binding ∈ specifier.children := by
    rcases Option.or_eq_some_iff.mp hbinding with hchild | ⟨_, hchild⟩
    · exact mem_children_of_child? hchild
    · exact mem_children_of_child? hchild
  exact (hmid.between_child hmem (within_of_mem_patternNames h) hname).imp_right
    fun hin => between_patternNames h hin hname

theorem between_importedNames {part : Node} (h : name ∈ part.importedNames)
    (hmid : Within part mid) (hname : Within mid name) : mid.kind.isBinding = true := by
  have hkind := isBinding_of_mem_importedNames h
  have hhere : mid = part ∨ mid.kind.isBinding = true → mid.kind.isBinding = true := by
    rintro (rfl | hmid)
    · exact hkind
    · exact hmid
  -- The recursion goes through named children; an identifier and a specifier end it.
  have hbelow : (∃ child ∈ part.namedChildren, name ∈ child.importedNames) →
      mid.kind.isBinding = true := by
    rintro ⟨child, hnamed, hchild⟩
    have hmem := mem_children_of_mem_namedChildren hnamed
    rcases hmid.between_child hmem (within_of_mem_importedNames hchild) hname with rfl | hin
    · exact hkind
    · have hlt := size_lt_of_mem_children hmem
      exact between_importedNames hchild hin hname
  unfold importedNames at h
  split at h
  case h_4 => exact between_patternNames h hmid hname
  case h_5 =>
    split at h
    · rename_i binding hbinding
      exact hhere (between_importedAs? hbinding h hmid hname)
    · exact absurd h List.not_mem_nil
  case h_6 => exact absurd h List.not_mem_nil
  all_goals
    obtain ⟨child, _, hchild⟩ := List.mem_flatMap.mp h
    exact hbelow ⟨child.1, child.2, hchild⟩
termination_by part.tree.size

theorem between_importNames (h : name ∈ declaration.importNames) (hmid : Within declaration mid)
    (hname : Within mid name) : mid = declaration ∨ mid.kind.isBinding = true := by
  obtain ⟨part, hpart, hin⟩ := mem_importNames_iff.mp h
  exact (hmid.between_child (mem_children_of_mem_namedChildren hpart)
    (within_of_mem_importedNames hin) hname).imp_right
    fun hbelow => between_importedNames hin hbelow hname

/-! ## Declarations -/

/-- The node introduces the name, in whatever scope. -/
def Declares (source : Source) (declaration name : Node) : Prop :=
  name ∈ declaration.ownNames source ∨ name ∈ declaration.blockNames ∨
    name ∈ declaration.hoistedNames source

theorem Declares.within (h : Declares source declaration name) : Within declaration name := by
  rcases h with h | h | h
  · exact within_of_mem_ownNames h
  · exact within_of_mem_blockNames h
  · exact within_of_mem_hoistedNames h

theorem mem_ownNames_of_isCallbackLiteral (h : declaration.kind.isCallbackLiteral = true)
    (hname : name ∈ declaration.parameterNames) : name ∈ declaration.ownNames source := by
  unfold ownNames
  split <;> simp_all [Kind.isCallbackLiteral]

theorem blockNames_of_isCallbackLiteral (h : declaration.kind.isCallbackLiteral = true) :
    declaration.blockNames = [] := by
  unfold blockNames
  split <;> simp_all [Kind.isCallbackLiteral]

theorem hoistedNames_of_isCallbackLiteral (h : declaration.kind.isCallbackLiteral = true) :
    declaration.hoistedNames source = [] := by
  unfold hoistedNames
  split <;> simp_all [Kind.isCallbackLiteral]

/-- Between a declaration and a name that it introduces there are parts of patterns and imports, and
the parameters of a function. -/
theorem between_declares (h : Declares source declaration name) (hmid : Within declaration mid)
    (hname : Within mid name) : mid = declaration ∨ mid.kind.isBinding = true ∨
      declaration.kind.isFunction = true ∧ declaration.child? .parameters = some mid := by
  have hplain : mid = declaration ∨ mid.kind.isBinding = true →
      mid = declaration ∨ mid.kind.isBinding = true ∨
        declaration.kind.isFunction = true ∧ declaration.child? .parameters = some mid :=
    fun h => h.imp_right .inl
  have hparameters : declaration.kind.isFunction = true → name ∈ declaration.parameterNames →
      mid = declaration ∨ mid.kind.isBinding = true ∨
        declaration.kind.isFunction = true ∧ declaration.child? .parameters = some mid :=
    fun hkind h => (between_parameterNames h hmid hname).imp_right
      fun h => h.imp_right fun hlist => ⟨hkind, hlist⟩
  rcases h with h | h | h
  · unfold ownNames at h
    split at h <;> rename_i hkind
    case h_1 | h_2 | h_3 =>
      rcases List.mem_append.mp h with h | h
      · exact hplain (between_namesAt h hmid hname)
      · exact hparameters (by rw [hkind]; rfl) h
    case h_4 | h_5 | h_6 | h_7 => exact hparameters (by rw [hkind]; rfl) h
    case h_8 =>
      split at h
      · exact hplain (between_namesAt h hmid hname)
      · exact absurd h List.not_mem_nil
    case h_9 => exact hplain (between_namesAt h hmid hname)
    case h_10 => exact absurd h List.not_mem_nil
  · unfold blockNames at h
    split at h
    case h_1 | h_2 | h_3 => exact hplain (between_namesAt h hmid hname)
    case h_4 => exact hplain (between_declaratorNames h hmid hname)
    case h_5 => exact hplain (between_importNames h hmid hname)
    case h_6 => exact absurd h List.not_mem_nil
  · unfold hoistedNames at h
    split at h
    case h_1 => exact hplain (between_declaratorNames h hmid hname)
    case h_2 =>
      split at h
      · exact hplain (between_namesAt h hmid hname)
      · exact absurd h List.not_mem_nil
    case h_3 => exact absurd h List.not_mem_nil

/-! ## The names of declarators -/

/-- What stands in a pattern above one of its names is a pattern with that name. -/
theorem mem_patternNames_of_between {pattern : Node} (h : name ∈ pattern.patternNames)
    (hmid : Within pattern mid) (hname : Within mid name) : name ∈ mid.patternNames := by
  rcases patternNames_cases h with rfl | ⟨child, hmem, hchild⟩
  · rw [hname.antisymm hmid]
    exact h
  · rcases hmid.between_child hmem (within_of_mem_patternNames hchild) hname with rfl | hin
    · exact h
    · exact mem_patternNames_of_between hchild hin hname
termination_by pattern.tree.size
decreasing_by exact size_lt_of_mem_children hmem

theorem not_declares_of_mem_patternNames {declared : Node} (h : name ∈ pattern.patternNames) :
    ¬ Declares source pattern declared := by
  unfold patternNames at h
  split at h <;> rename_i hkind
  case h_12 => exact absurd h List.not_mem_nil
  all_goals simp [Declares, ownNames, blockNames, hoistedNames, hkind]

/-- A name that a function introduces below its list of parameters is a name of one of them. -/
theorem exists_parameter_of_declares {list : Node} (hkind : declaration.kind.isFunction = true)
    (hlist : declaration.child? .parameters = some list) (h : Declares source declaration name)
    (hin : Within list name) : ∃ parameter ∈ list.namedChildren, name ∈ parameter.patternNames := by
  -- A child in another role is another child, and the name is not below it.
  have hrole : ∀ {field : Field}, field ≠ .parameters → name ∉ declaration.namesAt field := by
    intro field hfield hname
    unfold namesAt at hname
    split at hname
    · rename_i child hchild
      have hsame := Within.child_unique (mem_children_of_child? hchild) (mem_children_of_child? hlist)
        (within_of_mem_patternNames hname) hin
      exact child?_ne hfield hchild hlist hsame
    · exact absurd hname List.not_mem_nil
  have hparameters : name ∈ declaration.parameterNames →
      ∃ parameter ∈ list.namedChildren, name ∈ parameter.patternNames := by
    intro hname
    rcases List.mem_append.mp hname with hname | hname
    · exact absurd hname (hrole (by simp))
    · rw [hlist] at hname
      exact List.mem_flatMap.mp hname
  rcases h with h | h | h
  · unfold ownNames at h
    split at h
    case h_1 | h_2 | h_3 =>
      rcases List.mem_append.mp h with h | h
      · exact absurd h (hrole (by simp))
      · exact hparameters h
    case h_4 | h_5 | h_6 | h_7 => exact hparameters h
    all_goals simp_all [Kind.isFunction]
  · unfold blockNames at h
    split at h
    case h_1 | h_2 => exact absurd h (hrole (by simp))
    all_goals simp_all [Kind.isFunction]
  · unfold hoistedNames at h
    split at h <;> simp_all [Kind.isFunction]

/-- A name of a declarator is introduced by its declaration and by nothing else. -/
theorem eq_of_mem_declaratorNames {tree : Tree} {other : Node}
    (hkind : declaration.kind = .lexicalDeclaration ∨ declaration.kind = .variableDeclaration)
    (hname : name ∈ declaration.declaratorNames) (hwithin : Within (root tree) declaration)
    (hother : Within (root tree) other) (h : Declares source other name) : other = declaration := by
  obtain ⟨declarator, hdeclarator, hnames⟩ := List.mem_flatMap.mp hname
  obtain ⟨hnamed, hdeclaratorKind⟩ := List.mem_filter.mp hdeclarator
  have hmem := mem_children_of_mem_namedChildren hnamed
  rw [beq_iff_eq] at hdeclaratorKind
  have hbelow := within_of_mem_namesAt hnames
  have hin := within_of_mem_declaratorNames hname
  rcases hother.total hwithin h.within hin with hover | hunder
  · rcases between_declares h hover hin with heq | hbinding | ⟨hfunction, hlist⟩
    · exact heq.symm
    · rcases hkind with hkind | hkind <;> simp [hkind, Kind.isBinding] at hbinding
    · -- The declaration would be the list of parameters, but a declarator is no pattern.
      obtain ⟨parameter, hparameter, hpattern⟩ :=
        exists_parameter_of_declares hfunction hlist h hin
      have hsame := Within.child_unique (mem_children_of_mem_namedChildren hparameter) hmem
        (within_of_mem_patternNames hpattern) hbelow
      rw [hsame, patternNames] at hpattern
      simp [hdeclaratorKind] at hpattern
  · rcases hunder.between_child hmem hbelow h.within with heq | hunder
    · exact heq
    · exfalso
      unfold namesAt at hnames
      split at hnames
      · rename_i pattern hpattern
        rcases hunder.between_child (mem_children_of_child? hpattern)
          (within_of_mem_patternNames hnames) h.within with rfl | hunder
        · simp [Declares, ownNames, blockNames, hoistedNames, hdeclaratorKind] at h
        · exact not_declares_of_mem_patternNames
            (mem_patternNames_of_between hnames hunder h.within) h
      · exact absurd hnames List.not_mem_nil

end Node

/-! ## Names below a function literal -/

namespace ScopeTable

open Node

variable {source : Source} {tree : Tree} {table : ScopeTable} {top node name : Node}
  {scope own : ScopeId}

/-- A visit that comes to a node has come to all on the way. -/
theorem Reached.above {first mid : Node} (h : Reached first node) (hmid : Within first mid)
    (hbelow : Within mid node) : Reached first mid := by
  induction h with
  | self => exact hmid.antisymm hbelow ▸ .self
  | step hmem hreached ih =>
      rcases hmid.between_child (mem_children_of_mem_visitedChildren hmem) hreached.within hbelow
        with rfl | hin
      · exact .self
      · exact .step hmem (ih hin hbelow)

theorem IsEntered.above (h : IsEntered tree node) (htop : Within (root tree) top)
    (hne : top ≠ root tree) (hbelow : Within top node) : IsEntered tree top := by
  obtain ⟨child, hmem, hreached⟩ := h
  rcases htop.between_child hmem hreached.within hbelow with hroot | hin
  · exact absurd hroot hne
  · exact ⟨child, hmem, hreached.above hin hbelow⟩

/-- Seen from below a node with a scope of its own, the nearest scope is opened there or below. -/
theorem nearest?_within (hbelow : Within top node) (hne : node ≠ top)
    (hopen : table.openedAt? top = some own)
    (h : table.nearest? (node.above.map Prod.fst) = some scope) :
    ∃ mid, Within top mid ∧ Within mid node ∧ table.openedAt? mid = some scope := by
  rcases hbelow.last with heq | ⟨parent, hmem, hparent⟩
  · exact absurd heq hne
  obtain ⟨inner, hlineage, hinner⟩ := exists_lineage_append hparent
  rw [above_eq_lineage hmem, hlineage, nearest?, List.findSome?_append,
    Option.or_eq_some_iff] at h
  rcases h with h | ⟨_, h⟩
  · obtain ⟨id, hid, hscope⟩ := List.exists_of_findSome?_eq_some h
    obtain ⟨mid, hmid, _, hdown, rfl⟩ := hinner id hid
    exact ⟨mid, hmid, hdown.child hmem, hscope⟩
  · rw [lineage, List.findSome?_cons, show table.opened.lookup top.id = some own from hopen] at h
    cases h
    exact ⟨top, .self, hbelow, hopen⟩

/-- The same of the nearest scope of a function, if the node is one. -/
theorem nearestFunction?_within (hbelow : Within top node) (hne : node ≠ top)
    (hopen : table.openedAt? top = some own) (hkind : table.kindOf? own = some .function)
    (h : table.nearestFunction? (node.above.map Prod.fst) = some scope) :
    ∃ mid, Within top mid ∧ Within mid node ∧ table.openedAt? mid = some scope := by
  rcases hbelow.last with heq | ⟨parent, hmem, hparent⟩
  · exact absurd heq hne
  obtain ⟨inner, hlineage, hinner⟩ := exists_lineage_append hparent
  rw [above_eq_lineage hmem, hlineage, nearestFunction?, List.filterMap_append, List.find?_append,
    Option.or_eq_some_iff] at h
  rcases h with h | ⟨_, h⟩
  · obtain ⟨id, hid, hscope⟩ := List.mem_filterMap.mp (List.mem_of_find?_eq_some h)
    obtain ⟨mid, hmid, _, hdown, rfl⟩ := hinner id hid
    exact ⟨mid, hmid, hdown.child hmem, hscope⟩
  · rw [← nearestFunction?, lineage, nearestFunction?_cons,
      show table.opened.lookup top.id = some own from hopen] at h
    simp only [isBlock_eq, hkind] at h
    cases h
    exact ⟨top, .self, hbelow, hopen⟩

end ScopeTable

/-- A function literal that is handed over as an argument. -/
structure Node.IsArgument (tree : Tree) (callback : Node) : Prop where
  within : Within (root tree) callback
  literal : callback.kind.isCallbackLiteral = true
  listed : ∃ list : Node, callback ∈ list.children ∧ list.kind = .arguments

namespace Node.IsArgument

open ScopeTable

variable {source : Source} {tree : Tree} {callback node name : Node}

theorem ne_root (h : IsArgument tree callback) : callback ≠ root tree := by
  obtain ⟨list, hmem, _⟩ := h.listed
  exact Within.self.ne_root hmem

theorem scopeKind? (h : IsArgument tree callback) : callback.scopeKind? = some .function := by
  obtain ⟨list, hmem, _⟩ := h.listed
  rw [Node.scopeKind?, parent?_of_mem_children hmem]
  simp only [Kind.isFunction_of_isCallbackLiteral h.literal, if_true]

/-- No declaration above the literal introduces a name below it. -/
theorem within_of_declares (h : IsArgument tree callback) (hnode : Within (root tree) node)
    (hdeclares : Declares source node name) (hname : Within callback name) :
    Within callback node := by
  rcases h.within.total hnode hname hdeclares.within with hin | hover
  · exact hin
  have hfunction := Kind.isFunction_of_isCallbackLiteral h.literal
  rcases between_declares hdeclares hover hname with heq | hbinding | ⟨hkind, hlist⟩
  · exact heq ▸ .self
  · rw [Kind.not_isBinding_of_isFunction hfunction] at hbinding
    exact absurd hbinding (by simp)
  · -- The list of parameters is no literal: the literal stands among arguments.
    obtain ⟨list, hmem, harguments⟩ := h.listed
    have hparent := parent?_of_mem_children (mem_children_of_child? hlist)
    rw [parent?_of_mem_children hmem] at hparent
    cases hparent
    rw [harguments] at hkind
    exact absurd hkind (by simp [Kind.isFunction])

/-- A name below the literal is bound in a scope that is opened there or below, around the name. -/
theorem exists_opener (h : IsArgument tree callback) (hname : Within callback name)
    {binding : BindingId} (hdeclared : (build source tree).declaredAt? name = some binding) :
    ∃ mid scope, Within callback mid ∧ Within mid name ∧
      (build source tree).openedAt? mid = some scope ∧
      (build source tree).bindings[binding]? = some ⟨name.text source, scope⟩ := by
  obtain ⟨scope, hentry, htraced⟩ :=
    (exact_build source tree).declared (h.within.trans hname) hdeclared
  -- The declaration is below the literal, so the visit has opened the scope of the literal.
  have hbelow : ∀ {node : Node}, IsEntered tree node → Declares source node name →
      Within callback node ∧ ∃ own, (build source tree).openedAt? callback = some own ∧
        (build source tree).kindOf? own = some .function := by
    intro node hentered hdeclares
    have hin := h.within_of_declares hentered.within hdeclares hname
    obtain ⟨child, hmem, hreached⟩ := hentered.above h.within h.ne_root hin
    exact ⟨hin, ((visited_build source tree).2 child hmem callback hreached).opens.opened _
      h.scopeKind?⟩
  cases htraced with
  | @own node _ _ hentered _ hown hopen =>
      exact ⟨node, scope, (hbelow hentered (.inl hown)).1, within_of_mem_ownNames hown, hopen,
        hentry⟩
  | @block node _ _ hentered _ hblock hnear =>
      obtain ⟨hin, own, hopen, _⟩ := hbelow hentered (.inr (.inl hblock))
      have hne : node ≠ callback := by
        rintro rfl
        exact absurd hblock (by rw [blockNames_of_isCallbackLiteral h.literal]; simp)
      obtain ⟨mid, hmid, hdown, hscope⟩ := nearest?_within hin hne hopen hnear
      exact ⟨mid, scope, hmid, hdown.trans (within_of_mem_blockNames hblock), hscope, hentry⟩
  | @hoisted node _ _ hentered _ hhoisted hnear =>
      obtain ⟨hin, own, hopen, hkind⟩ := hbelow hentered (.inr (.inr hhoisted))
      have hne : node ≠ callback := by
        rintro rfl
        exact absurd hhoisted (by rw [hoistedNames_of_isCallbackLiteral h.literal]; simp)
      obtain ⟨mid, hmid, hdown, hscope⟩ := nearestFunction?_within hin hne hopen hkind hnear
      exact ⟨mid, scope, hmid, hdown.trans (within_of_mem_hoistedNames hhoisted), hscope, hentry⟩

end Node.IsArgument

end JestMigration
