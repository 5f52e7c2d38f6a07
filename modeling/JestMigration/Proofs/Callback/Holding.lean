/-
# `Proofs.Callback.Holding` — what belongs to one callback only

A callback holds the nodes on the way down to the names of its context
(`Holds`), and uses the references of these names in its body (`Uses`).  Callbacks
are nested and may give their contexts the same name, but a leaf is held by one
of them only, since no function literal stands on that way (`Holds.unique`), and
a reference is used by one only, since its binding is in a scope that is opened
on that way (`BoundBy.unique`).
-/
import JestMigration.Proofs.Scope.Binders

namespace JestMigration

/-- What may stand between a function and the names of its context. -/
def Kind.isParameterPart (kind : Kind) : Bool :=
  kind == .other "formal_parameters" || kind == .requiredParameter || kind == .optionalParameter ||
    kind == .objectPattern || kind == .pairPattern

theorem Kind.isCallbackLiteral_of_isParameterPart {kind : Kind} (h : kind.isParameterPart = true) :
    kind.isCallbackLiteral = false := by
  simp only [isParameterPart, Bool.or_eq_true, beq_iff_eq] at h
  rcases h with (((h | h) | h) | h) | h <;> rw [h] <;> rfl

namespace Callback

open Context Node ScopeTable

variable {source : Source} {tree : Tree} {binding : BindingId}
  {callback other first leaf node below name reference : Node}

/-! ## Parameters -/

/-- The node is a parameter of the callback, or part of one or of their list. -/
structure Holds (callback leaf : Node) : Prop where
  within : Within callback leaf
  ne : leaf ≠ callback
  between : ∀ {mid : Node}, Within callback mid → Within mid leaf →
    mid = callback ∨ mid = leaf ∨ mid.kind.isParameterPart = true

namespace Holds

theorem of_child (hmem : below ∈ callback.children) : Holds callback below where
  within := .of_mem_children hmem
  ne := by
    rintro rfl
    exact absurd (id_bounds_of_mem_children hmem).1 (Nat.lt_irrefl _)
  between := by
    intro mid hmid hbelow
    rcases hbelow.of_child hmem with heq | hover
    · exact .inr (.inl heq)
    · exact .inl (hover.antisymm hmid)

theorem child (h : Holds callback node) (hkind : node.kind.isParameterPart = true)
    (hmem : below ∈ node.children) : Holds callback below where
  within := h.within.child hmem
  ne := by
    rintro rfl
    have hlt := (id_bounds_of_mem_children hmem).1
    have hle := h.within.id_bounds.1
    omega
  between := by
    intro mid hmid hbelow
    rcases hbelow.of_child hmem with heq | hover
    · exact .inr (.inl heq)
    · rcases h.between hmid hover with heq | rfl | hpart
      · exact .inl heq
      · exact .inr (.inr hkind)
      · exact .inr (.inr hpart)

/-- A function literal around what a callback holds is around the callback. -/
theorem within_of_literal (h : Holds callback leaf) (hleaf : leaf.kind.isCallbackLiteral = false)
    (hcallback : Within (root tree) callback) (hother : Within (root tree) other)
    (hliteral : other.kind.isCallbackLiteral = true) (hin : Within other leaf) :
    Within other callback := by
  rcases hother.total hcallback hin h.within with hover | hunder
  · exact hover
  · rcases h.between hunder hin with rfl | rfl | hpart
    · exact .self
    · rw [hleaf] at hliteral
      exact absurd hliteral (by simp)
    · rw [Kind.isCallbackLiteral_of_isParameterPart hpart] at hliteral
      exact absurd hliteral (by simp)

/-- A node is held by one function literal only. -/
theorem unique (h : Holds callback leaf) (h' : Holds other leaf)
    (hleaf : leaf.kind.isCallbackLiteral = false) (hcallback : IsArgument tree callback)
    (hother : IsArgument tree other) : callback = other :=
  (h'.within_of_literal hleaf hother.within hcallback.within hcallback.literal h.within).antisymm
    (h.within_of_literal hleaf hcallback.within hother.within hother.literal h'.within)

/-! ### What a callback holds -/

theorem parameter (hlead : tree.Leading source) (hcallback : IsArgument tree callback)
    (hfirst : first ∈ callback.parameters) : Holds callback first := by
  unfold parameters at hfirst
  split at hfirst
  · rename_i single hsingle
    rw [List.mem_singleton.mp hfirst]
    exact of_child (mem_children_of_child? hsingle)
  · split at hfirst
    · rename_i list hlist
      obtain ⟨hkind, _⟩ := hlead.lists callback (mem_nodes_of_within hcallback.within)
        hcallback.literal list hlist
      exact (of_child (mem_children_of_child? hlist)).child (by rw [hkind]; rfl)
        (mem_children_of_mem_namedChildren hfirst)
    · exact absurd hfirst List.not_mem_nil

theorem pattern (h : Holds callback first) : Holds callback (patternOf first) := by
  rcases patternOf_cases first with heq | hmem
  · exact heq.symm ▸ h
  · by_cases hkind : first.kind = .requiredParameter ∨ first.kind = .optionalParameter
    · exact h.child (by rcases hkind with hkind | hkind <;> rw [hkind] <;> rfl) hmem
    · rw [patternOf_eq (fun h => hkind (.inl h)) (fun h => hkind (.inr h))]
      exact h

theorem binder (h : Holds callback first) (hkind : (patternOf first).kind = .objectPattern)
    {members : List Member} {member : Member}
    (hmembers : Member.ofPattern? source (patternOf first) = some members)
    (hmember : member ∈ members) : Holds callback member.binder := by
  obtain ⟨element, helement, hread⟩ := exists_element hmembers hmember
  have hin := h.pattern.child (by rw [hkind]; rfl) (mem_children_of_mem_namedChildren helement)
  rcases ofElement?_cases hread with ⟨hsame, _⟩ | ⟨hpair, hvalue, _⟩
  · exact hsame.symm ▸ hin
  · exact hin.child (by rw [hpair]; rfl) (mem_children_of_child? hvalue)

end Holds

theorem kind_of_member {members : List Member} {member : Member} {pattern : Node}
    (hmembers : Member.ofPattern? source pattern = some members) (hmember : member ∈ members) :
    member.binder.kind = .identifier ∨ member.binder.kind = .shorthandPattern := by
  obtain ⟨element, _, hread⟩ := exists_element hmembers hmember
  rcases ofElement?_cases hread with ⟨hsame, hkind, _⟩ | ⟨_, _, hkind⟩
  · exact .inr (hsame.symm ▸ hkind)
  · exact .inl hkind

theorem Local.kind (h : Local source first name) :
    name.kind = .identifier ∨ name.kind = .shorthandPattern := by
  cases h with
  | named hkind => exact .inl hkind
  | member _ hmembers hmember _ => exact kind_of_member hmembers hmember

theorem Local.holds (h : Local source first name) (hfirst : Holds callback first) :
    Holds callback name := by
  cases h with
  | named _ => exact hfirst.pattern
  | member hkind hmembers hmember _ => exact hfirst.binder hkind hmembers hmember

/-! ## References -/

/-- The binding is in a scope that is opened by the callback or below, with no function literal
between. -/
def BoundBy (source : Source) (tree : Tree) (callback : Node) (binding : BindingId) : Prop :=
  ∃ mid scope text, Within callback mid ∧ (build source tree).openedAt? mid = some scope ∧
    (build source tree).bindings[binding]? = some ⟨text, scope⟩ ∧
    ∀ {other : Node}, Within (root tree) other → other.kind.isCallbackLiteral = true →
      Within other mid → Within other callback

namespace BoundBy

/-- The names of a context are bound by its callback. -/
theorem of_local (hlead : tree.Leading source) (hcallback : IsArgument tree callback)
    (hfirst : first ∈ callback.parameters) (hlocal : Local source first name)
    (hdeclared : (build source tree).declaredAt? name = some binding) :
    BoundBy source tree callback binding := by
  have hholds := hlocal.holds (.parameter hlead hcallback hfirst)
  have hkind : name.kind.isCallbackLiteral = false := by
    rcases hlocal.kind with hkind | hkind <;> rw [hkind] <;> rfl
  obtain ⟨mid, scope, hmid, hname, hopen, hentry⟩ :=
    hcallback.exists_opener hholds.within hdeclared
  exact ⟨mid, scope, _, hmid, hopen, hentry, fun hother hliteral hin =>
    hholds.within_of_literal hkind hcallback.within hother hliteral (hin.trans hname)⟩

/-- One scope is opened at one node: what is known of the scope of a binding is known of `mid`. -/
theorem opener_unique {mid node : Node} {scope found : ScopeId} {text word : String}
    (hmid : Within (root tree) mid) (hopen : (build source tree).openedAt? mid = some scope)
    (hentry : (build source tree).bindings[binding]? = some ⟨text, scope⟩)
    (hnode : Within (root tree) node) (hopen' : (build source tree).openedAt? node = some found)
    (hentry' : (build source tree).bindings[binding]? = some ⟨word, found⟩) : node = mid := by
  rw [hentry] at hentry'
  cases hentry'
  exact hnode.eq_of_id hmid ((sound_build source tree).injective hopen' hopen)

/-- A binding is bound by one callback only. -/
theorem unique (h : BoundBy source tree callback binding) (h' : BoundBy source tree other binding)
    (hcallback : IsArgument tree callback) (hother : IsArgument tree other) : callback = other := by
  obtain ⟨mid, scope, text, hmid, hopen, hentry, haround⟩ := h
  obtain ⟨node, found, word, hnode, hopen', hentry', haround'⟩ := h'
  have hsame := opener_unique (hcallback.within.trans hmid) hopen hentry
    (hother.within.trans hnode) hopen' hentry'
  subst hsame
  exact (haround' hcallback.within hcallback.literal hmid).antisymm
    (haround hother.within hother.literal hnode)

/-- What stands for the binding is below the callback. -/
theorem within_of_declaredAt? (h : BoundBy source tree callback binding)
    (hcallback : IsArgument tree callback) (hname : Within (root tree) name)
    (hdeclared : (build source tree).declaredAt? name = some binding) : Within callback name := by
  obtain ⟨mid, scope, text, hmid, hopen, hentry, _⟩ := h
  obtain ⟨found, hentry', _, id, hid, hopen'⟩ := (sound_build source tree).declared hname hdeclared
  obtain ⟨above, habove, haround, rfl⟩ := (mem_lineage_iff hname).mp hid
  have hsame := opener_unique (hcallback.within.trans hmid) hopen hentry habove hopen' hentry'
  exact hmid.trans (hsame ▸ haround)

/-- A binding of the program is not bound by a callback. -/
theorem scope_ne (h : BoundBy source tree callback binding) (hcallback : IsArgument tree callback)
    {text : String} :
    (build source tree).bindings[binding]? ≠ some ⟨text, programScope⟩ := by
  intro hprogram
  obtain ⟨mid, scope, _, hmid, hopen, hentry, _⟩ := h
  have hsame : root tree = mid := opener_unique (hcallback.within.trans hmid) hopen hentry .self
    (sound_build source tree).rooted hprogram
  exact hcallback.ne_root ((hsame ▸ hmid).antisymm hcallback.within)

/-- A function literal with the name in its scope, around a node that refers to the binding, is
around the callback. -/
theorem within_of_hasName (h : BoundBy source tree callback binding)
    (hcallback : IsArgument tree callback) (hother : IsArgument tree other)
    (hin : Within other node) (hhas : (build source tree).HasName other (node.text source))
    (hresolve : (build source tree).resolve? source node = some binding) :
    Within other callback := by
  obtain ⟨mid, scope, text, hmid, hopen, hentry, haround⟩ := h
  obtain ⟨found, opened, hfound, hopen', hentry'⟩ :=
    (sound_build source tree).resolve?_of_hasName hother.within hin hhas hresolve
  have hsame := opener_unique (hcallback.within.trans hmid) hopen hentry
    (hother.within.trans hfound) hopen' hentry'
  exact haround hother.within hother.literal (hsame ▸ hfound)

end BoundBy

/-- The node is a reference, in the body of the callback, to a name of its context. -/
def Uses (source : Source) (tree : Tree) (callback reference : Node) : Prop :=
  ∃ first rest body name binding, callback.parameters = first :: rest ∧
    callback.child? .body = some body ∧ Local source first name ∧
    (build source tree).declaredAt? name = some binding ∧
    reference ∈ (build source tree).references source body binding

namespace Uses

theorem within (h : Uses source tree callback reference) : Within callback reference := by
  obtain ⟨_, _, _, _, _, _, hbody, _, _, href⟩ := h
  obtain ⟨_, _, hin, _⟩ := mem_references_iff.mp href
  exact (within_of_child? hbody).trans hin

theorem isName (h : Uses source tree callback reference) : reference.kind.isName = true := by
  obtain ⟨_, _, _, _, _, _, _, _, _, href⟩ := h
  obtain ⟨_, _, _, hkind, _⟩ := mem_references_iff.mp href
  rcases hkind with hkind | hkind <;> rw [hkind] <;> rfl

theorem declaredAt?_eq_none (h : Uses source tree callback reference) :
    (build source tree).declaredAt? reference = none := by
  obtain ⟨_, _, _, _, _, _, _, _, _, href⟩ := h
  obtain ⟨_, _, _, _, _, hundeclared, _⟩ := mem_references_iff.mp href
  exact hundeclared

theorem text_ne (hlead : tree.Leading source) (hcallback : IsArgument tree callback)
    (h : Uses source tree callback reference) : reference.text source ≠ "" := by
  obtain ⟨first, rest, _, name, _, hparameters, _, hlocal, hdeclared, href⟩ := h
  have hname := (hlocal.holds (.parameter hlead hcallback (by simp [hparameters]))).within
  obtain ⟨htext, hne⟩ := (sound_build source tree).text_of_mem_references
    (hcallback.within.trans hname) hdeclared href
  rw [htext]
  exact hne

theorem exists_binding (hlead : tree.Leading source) (hcallback : IsArgument tree callback)
    (h : Uses source tree callback reference) :
    ∃ binding, (build source tree).resolve? source reference = some binding ∧
      BoundBy source tree callback binding := by
  obtain ⟨first, rest, _, _, binding, hparameters, _, hlocal, hdeclared, href⟩ := h
  obtain ⟨_, _, _, _, _, _, hresolve⟩ := mem_references_iff.mp href
  exact ⟨binding, hresolve, .of_local hlead hcallback (by simp [hparameters]) hlocal hdeclared⟩

/-- A reference is used by one callback only. -/
theorem unique (hlead : tree.Leading source) (h : Uses source tree callback reference)
    (h' : Uses source tree other reference) (hcallback : IsArgument tree callback)
    (hother : IsArgument tree other) : callback = other := by
  obtain ⟨binding, hresolve, hbound⟩ := h.exists_binding hlead hcallback
  obtain ⟨found, hresolve', hbound'⟩ := h'.exists_binding hlead hother
  rw [hresolve] at hresolve'
  cases hresolve'
  exact hbound.unique hbound' hcallback hother

/-- A reference of one callback that another one holds as a name of its own belongs to that one. -/
theorem eq_of_holds (hlead : tree.Leading source) (h : Uses source tree callback leaf)
    (hholds : Holds other leaf) (hcallback : IsArgument tree callback)
    (hother : IsArgument tree other) (hhas : (build source tree).HasName other (leaf.text source)) :
    callback = other := by
  obtain ⟨binding, hresolve, hbound⟩ := h.exists_binding hlead hcallback
  have hkind : leaf.kind.isCallbackLiteral = false := by
    have hname := h.isName
    cases hleaf : leaf.kind <;> simp_all [Kind.isName, Kind.isCallbackLiteral]
  exact (hholds.within_of_literal hkind hother.within hcallback.within hcallback.literal
    h.within).antisymm (hbound.within_of_hasName hcallback hother hholds.within hhas hresolve)

end Uses

end Callback

end JestMigration
