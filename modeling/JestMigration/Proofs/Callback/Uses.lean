/-
# `Proofs.Callback.Uses` — uses of the context, read off the tree

A use is what a reference to the context is classified as.  The same is said
here of the tree around the reference: which calls have no rule (`Unmapped`),
which references get a new text (`Rewrites`), and which edit is due at a
reference (`Due`).  `unmapped_iff` and `due_iff` compare both with the
classification.
-/
import JestMigration.Proofs.Callback.Removal

namespace JestMigration

open Node

/-- A call of a method begins with the object of its callee.  The object of a member expression is no
shorthand property, and there are no names in the expression outside its object. -/
structure Tree.PlainMembers (tree : Tree) : Prop where
  calls : ∀ call ∈ (root tree).nodes, call.kind = .callExpression →
    ∀ callee ∈ call.child? .function, callee.kind = .memberExpression →
      ∀ object ∈ callee.child? .object, object.span.start = call.span.start
  objects : ∀ member ∈ (root tree).nodes, member.kind = .memberExpression →
    ∀ object ∈ member.child? .object, object.kind ≠ .shorthandProperty
  names : ∀ member ∈ (root tree).nodes, member.kind = .memberExpression →
    ∀ object ∈ member.child? .object, ∀ child ∈ member.children, child.id ≠ object.id →
      ∀ node ∈ child.nodes, node.kind.isName = false

instance (tree : Tree) : Decidable tree.PlainMembers :=
  decidable_of_iff
    ((∀ call ∈ (root tree).nodes, call.kind = .callExpression →
        ∀ callee ∈ call.child? .function, callee.kind = .memberExpression →
          ∀ object ∈ callee.child? .object, object.span.start = call.span.start) ∧
      (∀ member ∈ (root tree).nodes, member.kind = .memberExpression →
        ∀ object ∈ member.child? .object, object.kind ≠ .shorthandProperty) ∧
      ∀ member ∈ (root tree).nodes, member.kind = .memberExpression →
        ∀ object ∈ member.child? .object, ∀ child ∈ member.children, child.id ≠ object.id →
          ∀ node ∈ child.nodes, node.kind.isName = false)
    ⟨fun ⟨h₁, h₂, h₃⟩ => ⟨h₁, h₂, h₃⟩, fun h => ⟨h.calls, h.objects, h.names⟩⟩

/-- A name in a member expression is one in its object. -/
theorem Tree.PlainMembers.within_object {tree : Tree} (h : tree.PlainMembers)
    {member object name : Node} (hmember : Within (root tree) member)
    (hkind : member.kind = .memberExpression) (hobject : member.child? .object = some object)
    (hin : Within member name) (hname : name.kind.isName = true) : Within object name := by
  rcases hin.head with rfl | ⟨child, hchild, hin⟩
  · simp [hkind, Kind.isName] at hname
  · by_cases hid : child.id = object.id
    · have hobjectmem := mem_children_of_child? hobject
      exact (hmember.child hchild).eq_of_id (hmember.child hobjectmem) hid ▸ hin
    · have hnone := h.names member (mem_nodes_of_within hmember) hkind object hobject child hchild
        hid name (mem_nodes_of_within hin)
      simp [hnone] at hname

/-- There is one rule for a method. -/
theorem Rule.find?_eq_some_iff {method : String} {rule : Rule} :
    find? method = some rule ↔ rule ∈ all ∧ rule.method = method := by
  have hunique : ∀ a ∈ all, ∀ b ∈ all, a.method = b.method → a = b := by decide +kernel
  constructor
  · intro h
    exact ⟨List.mem_of_find?_eq_some h, method_of_find? h⟩
  · rintro ⟨hmem, hmethod⟩
    obtain ⟨found, hfound⟩ := Option.isSome_iff_exists.mp (isSome_find?_iff.mpr ⟨rule, hmem, hmethod⟩)
    rw [hfound, hunique found (List.mem_of_find?_eq_some hfound) rule hmem
      ((method_of_find? hfound).trans hmethod.symm)]

/-! ## Uses, read off the tree -/

namespace Context

/-- The call has the node for its callee, and an argument list. -/
structure CalledBy (tree : Tree) (node call : Node) : Prop where
  within : Within (root tree) call
  kind : call.kind = .callExpression
  callee : call.child? .function = some node
  arguments : ∃ list, call.child? .arguments = some list ∧ list.kind = .arguments

/-- At the reference a method is called that no rule is for. -/
structure Unmapped (source : Source) (tree : Tree) (reference member call : Node) (name : String) :
    Prop where
  access : Accesses source tree reference member name
  called : CalledBy tree member call
  unruled : ∀ rule ∈ Rule.all, rule.method ≠ name

/-- A method of the member is called. -/
def CallsMethod (tree : Tree) (member : Node) : Prop :=
  ∃ method call, Within (root tree) method ∧ method.kind = .memberExpression ∧
    method.child? .object = some member ∧ Within (root tree) call ∧
    call.kind = .callExpression ∧ call.child? .function = some method

/-- What is written in place of a member of the context that is understood. -/
inductive Rewrites (source : Source) (tree : Tree) (context : String) (reference : Node) :
    Change → Prop
  | assertion {member call : Node} {rule : Rule} :
      Accesses source tree reference member rule.method → CalledBy tree member call →
      rule ∈ Rule.all → Rewrites source tree context reference
        (Assertion.change ⟨call, member, context, rule⟩ completionName)
  | endValue {member : Node} : Accesses source tree reference member "end" → ¬ Called tree member →
      Rewrites source tree context reference (.replace member.span completionName)
  | failValue {member : Node} : Accesses source tree reference member "fail" →
      ¬ Called tree member →
      Rewrites source tree context reference (.replace reference.span completionName)
  | contextCall {member : Node} : Accesses source tree reference member "context" →
      ¬ Called tree member → CallsMethod tree member →
      Rewrites source tree context reference (.replace member.span "context")

/-- What is to be done at a reference: a member that is understood is written anew; at any other use
the context follows its parameter, which has a new name in completion style. -/
def Due (source : Source) (tree : Tree) (context : String) (completing : Prop) (reference : Node)
    (change : Change) : Prop :=
  Rewrites source tree context reference change ∨
    (∀ other, ¬ Rewrites source tree context reference other) ∧ completing ∧
      change = rename source reference completionName

section

variable {source : Source} {tree : Tree} {node reference member call : Node} {name : String}
  {context : String} {change : Change} {completion : Bool}

theorem calledBy_iff (h : Within (root tree) node) :
    CalledBy tree node call ↔ callWithArguments? node = some call := by
  rw [callWithArguments?_eq_some_iff, isSome_arguments?_iff, callOf?, headOf?_eq_some_iff h]
  exact ⟨fun ⟨hwithin, hkind, hcallee, harguments⟩ => ⟨⟨hwithin, hkind, hcallee⟩, harguments⟩,
    fun ⟨⟨hwithin, hkind, hcallee⟩, harguments⟩ => ⟨hwithin, hkind, hcallee, harguments⟩⟩

theorem not_called_iff (h : Within (root tree) node) :
    ¬ Called tree node ↔ callWithArguments? node = none := by
  rw [called_iff h, Bool.not_eq_true, Option.isSome_eq_false_iff, Option.isNone_iff_eq_none]

theorem callsMethod_iff (h : Within (root tree) member) :
    CallsMethod tree member ↔ (member.memberOf?.bind Node.callOf?).isSome = true := by
  simp only [Option.isSome_iff_exists, Option.bind_eq_some_iff]
  constructor
  · rintro ⟨method, call, hmethod, hkind, hobject, hcall, hkind', hcallee⟩
    exact ⟨call, method, (headOf?_eq_some_iff h).mpr ⟨hmethod, hkind, hobject⟩,
      (headOf?_eq_some_iff hmethod).mpr ⟨hcall, hkind', hcallee⟩⟩
  · rintro ⟨call, method, hmethod, hcall⟩
    obtain ⟨hwithin, hkind, hobject⟩ := (headOf?_eq_some_iff h).mp hmethod
    obtain ⟨hwithin', hkind', hcallee⟩ := (headOf?_eq_some_iff hwithin).mp hcall
    exact ⟨method, call, hwithin, hkind, hobject, hwithin', hkind', hcallee⟩

theorem unruled_iff : (∀ rule ∈ Rule.all, rule.method ≠ name) ↔ Rule.find? name = none := by
  rw [← Option.not_isSome_iff_eq_none, Rule.isSome_find?_iff]
  simp

/-- A call passes through just if the classification finds no rule for it. -/
theorem unmapped_iff (h : Within (root tree) reference) :
    (∃ member, Unmapped source tree reference member call name) ↔
      Use.classify source reference = .unmapped call name := by
  constructor
  · rintro ⟨member, haccess, hcalled, hunruled⟩
    obtain ⟨hmember, hname⟩ := (accesses_iff h).mp haccess
    simp only [Use.classify, hmember, hname, (calledBy_iff haccess.within).mp hcalled,
      unruled_iff.mp hunruled]
  · intro hclassify
    have hclass := Use.classified source reference
    rw [hclassify] at hclass
    cases hclass with
    | @unmapped member _ _ hmember hname hcall hfind =>
        have haccess := (accesses_iff h).mpr ⟨hmember, hname⟩
        exact ⟨member, haccess, (calledBy_iff haccess.within).mpr hcall, unruled_iff.mpr hfind⟩

namespace Use

/-- Completion style gives something to do where there was nothing. -/
theorem change?_eq_or (use : Use) : use.change? source context completion reference =
    (use.change? source context false reference).or
      (if completion then some (rename source reference completionName) else none) := by
  cases use <;> rfl

/-- A member that is understood is written anew in either style. -/
theorem change?_of_rewrites (h : Within (root tree) reference)
    (hrewrites : Rewrites source tree context reference change) (completion : Bool) :
    (classify source reference).change? source context completion reference = some change := by
  cases hrewrites with
  | assertion haccess hcalled hrule =>
      obtain ⟨hmember, hname⟩ := (accesses_iff h).mp haccess
      simp only [classify, hmember, hname, (calledBy_iff haccess.within).mp hcalled,
        Rule.find?_eq_some_iff.mpr ⟨hrule, rfl⟩]
      rfl
  | endValue haccess hcalled =>
      obtain ⟨hmember, hname⟩ := (accesses_iff h).mp haccess
      simp only [classify, hmember, hname, (not_called_iff haccess.within).mp hcalled]
      rfl
  | failValue haccess hcalled =>
      obtain ⟨hmember, hname⟩ := (accesses_iff h).mp haccess
      simp only [classify, hmember, hname, (not_called_iff haccess.within).mp hcalled]
      rfl
  | contextCall haccess hcalled hmethod =>
      obtain ⟨hmember, hname⟩ := (accesses_iff h).mp haccess
      obtain ⟨call, hcall⟩ :=
        Option.isSome_iff_exists.mp ((callsMethod_iff haccess.within).mp hmethod)
      simp only [classify, hmember, hname, (not_called_iff haccess.within).mp hcalled, ofValue,
        hcall]
      rfl

/-- What is done apart from completion style is writing a member anew. -/
theorem rewrites_of_change? (h : Within (root tree) reference)
    (hchange : (classify source reference).change? source context false reference = some change) :
    Rewrites source tree context reference change := by
  have hclass := classified source reference
  generalize classify source reference = use at hchange hclass
  cases hclass with
  | @assertion member call name rule hmember hname hcall hrule =>
      cases hchange
      obtain ⟨hmem, rfl⟩ := Rule.find?_eq_some_iff.mp hrule
      have haccess := (accesses_iff h).mpr ⟨hmember, hname⟩
      exact .assertion haccess ((calledBy_iff haccess.within).mpr hcall) hmem
  | endValue hmember hname hcall =>
      cases hchange
      have haccess := (accesses_iff h).mpr ⟨hmember, hname⟩
      exact .endValue haccess ((not_called_iff haccess.within).mpr hcall)
  | failValue hmember hname hcall =>
      cases hchange
      have haccess := (accesses_iff h).mpr ⟨hmember, hname⟩
      exact .failValue haccess ((not_called_iff haccess.within).mpr hcall)
  | contextCall hmember hname hcall hup =>
      cases hchange
      have haccess := (accesses_iff h).mpr ⟨hmember, hname⟩
      exact .contextCall haccess ((not_called_iff haccess.within).mpr hcall)
        ((callsMethod_iff haccess.within).mpr (Option.isSome_iff_exists.mpr ⟨_, hup⟩))
  | unmapped | contextAccess | property | whole => exact absurd hchange (by simp [change?])

/-- What is asked for at a reference is what is due there. -/
theorem due_iff {completing : Prop} (h : Within (root tree) reference)
    (hstyle : completing ↔ completion = true) :
    Due source tree context completing reference change ↔
      (classify source reference).change? source context completion reference = some change := by
  rw [change?_eq_or]
  constructor
  · rintro (hrewrites | ⟨hnone, hcompleting, rfl⟩)
    · rw [change?_of_rewrites h hrewrites, Option.some_or]
    · have hidle : (classify source reference).change? source context false reference = none :=
        Option.eq_none_iff_forall_ne_some.mpr fun other hother =>
          hnone other (rewrites_of_change? h hother)
      rw [hidle, Option.none_or, if_pos (hstyle.mp hcompleting)]
  · intro hchange
    rcases Option.or_eq_some_iff.mp hchange with hrewrites | ⟨hidle, hrename⟩
    · exact .inl (rewrites_of_change? h hrewrites)
    · refine .inr ⟨?_, ?_⟩
      · intro other hother
        rw [change?_of_rewrites h hother] at hidle
        exact absurd hidle (by simp)
      · split at hrename
        · rename_i hcompletion
          exact ⟨hstyle.mpr hcompletion, (Option.some.inj hrename).symm⟩
        · exact absurd hrename (by simp)

end Use

end

end Context

end JestMigration
