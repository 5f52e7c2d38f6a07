/-
# `Proofs.Migration.Sites` — where a migration edits, and why edits agree

An edit is made at a node.  Most take the span of their node; a deleted
statement takes blanks around it as well.  `Site node span` collects what is
known of such an edit, whatever made it, and any two sites agree
(`Site.agree`): their spans are disjoint or nested.

  * Nodes that branch off from each other are kept apart by the visible bytes
    at their ends, also when both grow.
  * A node around another one is around its growth: a statement in a block
    cannot grow past the braces, and around an import there is only the root,
    which is not edited.

Then every step of the plan for a file is shown to be at a site, and the plan
can be carried out.
-/
import JestMigration.Proofs.Callback.Extent
import JestMigration.Proofs.Migration.Origin

namespace JestMigration

open Node

/-! ## Lines -/

/-- The lines of a statement contain its line. -/
theorem Source.contains_statementLines (source : Source) (statement : Span) :
    (source.statementLines statement).contains (source.statementLine statement) = true := by
  unfold statementLines
  simp only []
  split
  · exact Span.contains_iff.mpr ⟨Nat.le_refl _, (source.skipBlankLines_spec _).1⟩
  · exact Span.contains_self _

/-! ## Sites -/

/-- An edit of `span` is made at `node`. -/
structure Site (source : Source) (tree : Tree) (node : Node) (span : Span) : Prop where
  within : Within (root tree) node
  ne_root : node ≠ root tree
  plain : node.kind ≠ .switchCase ∧ node.kind ≠ .switchDefault
  trimmed : source.isTrimmed node.span = true
  grown : source.Grown node.span span
  growth : span = node.span ∨ span = source.statementLine node.span ∨
    span = source.statementLines node.span
  around : ∀ {other : Node}, Within (root tree) other → Within other node → other ≠ node →
    other ≠ root tree → other.kind ≠ .switchCase ∧ other.kind ≠ .switchDefault →
    other.span.contains span = true

namespace Site

variable {source : Source} {tree : Tree} {node node' : Node} {span span' : Span}

/-- Two edits at one node are nested. -/
theorem nested (h : Site source tree node span) (h' : Site source tree node span') :
    span.contains span' = true ∨ span'.contains span = true := by
  have hin := Source.start_le_of_isTrimmed h.trimmed
  have hline := (Source.grown_statementLine hin).contains
  have hlines := source.contains_statementLines node.span
  have hboth := Span.contains_trans hlines hline
  rcases h.growth with rfl | rfl | rfl <;> rcases h'.growth with rfl | rfl | rfl <;>
    simp [hline, hlines, hboth]

/-- Any two sites agree. -/
theorem agree (hnest : tree.WellNested source) (h : Site source tree node span)
    (h' : Site source tree node' span') : span.overlaps span' = false := by
  apply Span.overlaps_eq_false
  by_cases hsame : node = node'
  · subst hsame
    exact .inr (.inr (h.nested h'))
  · rcases hnest.compare h.within h'.within with hdown | hup | hleft | hright
    · have haround := h'.around h.within hdown hsame h.ne_root h.plain
      exact .inr (.inr (.inl (Span.contains_trans h.grown.contains haround)))
    · have haround := h.around h'.within hup (Ne.symm hsame) h'.ne_root h'.plain
      exact .inr (.inr (.inr (Span.contains_trans h'.grown.contains haround)))
    · exact .inl (h.grown.separate h'.grown h.trimmed h'.trimmed hleft)
    · exact .inr (.inl (h'.grown.separate h.grown h'.trimmed h.trimmed hright))

/-- Changes at sites never conflict. -/
theorem exists_applyAll (hnest : tree.WellNested source) {asked : List Change}
    (h : ∀ change ∈ asked, ∃ node, Site source tree node (change.span source)) :
    ∃ changes, ChangeSet.applyAll { source } asked = .ok changes := by
  refine ChangeSet.exists_applyAll (fun span => ∃ node, Site source tree node span) ?_ rfl ?_ h
  · rintro a b ⟨node, hsite⟩ ⟨node', hsite'⟩
    exact hsite.agree hnest hsite'
  · intro edit hedit
    exact absurd hedit List.not_mem_nil

/-- An edit of just a node. -/
theorem of_node (hnest : tree.WellNested source) (hnode : Within (root tree) node)
    (hne : node ≠ root tree) (hplain : node.kind ≠ .switchCase ∧ node.kind ≠ .switchDefault)
    (htrimmed : source.isTrimmed node.span = true) : Site source tree node node.span where
  within := hnode
  ne_root := hne
  plain := hplain
  trimmed := htrimmed
  grown := .refl source node.span
  growth := .inl rfl
  around := fun hother hdown _ _ _ => hnest.contains hother hdown

/-- The deletion of a statement in a list below the root. -/
theorem of_statement (hnest : tree.WellNested source) {statement list : Node}
    (hstatement : Within (root tree) statement) (hkind : statement.kind = .expressionStatement)
    (hparent : statement.parent? = some list) (hlist : Assertion.isStatementList list.kind = true)
    (hroot : list ≠ root tree) (htrimmed : source.isTrimmed statement.span = true) :
    Site source tree statement (source.statementLine statement.span) where
  within := hstatement
  ne_root := by
    rintro rfl
    exact absurd hparent (by simp [parent?, root])
  plain := by simp [hkind]
  trimmed := htrimmed
  grown := Source.grown_statementLine (Source.start_le_of_isTrimmed htrimmed)
  growth := .inr (.inl rfl)
  around := by
    intro other hother hdown hne _ hplain
    have hgrown := Source.grown_statementLine (Source.start_le_of_isTrimmed htrimmed)
    obtain ⟨block, _, hshelter⟩ := hnest.exists_shelter hstatement hkind hparent hlist hroot
    rcases hshelter.around hdown with hsame | hblock | hcase | hdefault
    · exact absurd hsame hne
    · exact Span.contains_trans (hnest.contains hother hblock) (hshelter.grown hgrown)
    · exact absurd hcase hplain.1
    · exact absurd hdefault hplain.2

/-- The deletion of a statement of the root with the blank lines after it. -/
theorem of_rootStatement {statement : Node} (hmem : statement ∈ (root tree).children)
    (hplain : statement.kind ≠ .switchCase ∧ statement.kind ≠ .switchDefault)
    (htrimmed : source.isTrimmed statement.span = true) :
    Site source tree statement (source.statementLines statement.span) where
  within := .child .self hmem
  ne_root := Within.self.ne_root hmem
  plain := hplain
  trimmed := htrimmed
  grown := Source.grown_statementLines (Source.start_le_of_isTrimmed htrimmed)
  growth := .inr (.inr rfl)
  around := by
    intro other hother hdown hne hroot _
    rcases hdown.of_child hmem with hsame | hover
    · exact absurd hsame hne
    · exact absurd (hover.antisymm hother) hroot

end Site

/-! ## Requests of a callback -/

namespace Request

variable {source : Source} {tree : Tree} {callback body reference : Node} {change : Change}

/-- The node that a request is about: one that begins with the reference, or the statement that such
a call makes up. -/
inductive About (reference : Node) (change : Change) : Node → Prop
  | head {node : Node} : Head reference node → About reference change node
  | statement {call statement : Node} : Head reference call → call ∈ statement.children →
      statement.kind = .expressionStatement → change = .deleteStatement statement.span →
      About reference change statement

/-- What is asked for because of a reference in a body is at a site in the body. -/
theorem site (hnest : tree.WellNested source) (htrim : tree.Trimmed source)
    (hcallback : Within (root tree) callback) (hliteral : callback.kind.isCallbackLiteral = true)
    (hbody : body ∈ callback.children) (href : Within body reference)
    (hkind : reference.kind = .identifier ∨ reference.kind = .shorthandProperty)
    (htrimmed : source.isTrimmed reference.span = true) (h : Request reference change) :
    ∃ node, Site source tree node (change.span source) ∧ Within body node ∧
      About reference change node := by
  have htop := (hcallback.child hbody).trans href
  rcases h.in_body source hcallback hliteral hbody href with
    ⟨node, hnode, hin, hspan⟩ |
      ⟨call, statement, list, hcall, hmem, hin, hkind', hlist, hislist, hin', hspan⟩
  · obtain ⟨hwithin, _⟩ := hnode.within htop
    have hsolid : node.kind.isSolid = true → source.isTrimmed node.span = true :=
      htrim.solid node (mem_nodes_of_within hwithin)
    rw [hspan]
    refine ⟨node, .of_node hnest hwithin (hin.ne_root hbody) ?_ ?_, hin, .head hnode⟩
    · rcases hnode.kind htop with rfl | h | h
      · rcases hkind with h | h <;> simp [h]
      · simp [h]
      · simp [h]
    · rcases hnode.kind htop with rfl | h | h
      · exact htrimmed
      · exact hsolid (by simp [h, Kind.isSolid])
      · exact hsolid (by simp [h, Kind.isSolid])
  · have hwithin := (hcallback.child hbody).trans hin
    rw [hspan]
    refine ⟨statement, .of_statement hnest hwithin hkind' hlist hislist
      (hin'.ne_root hbody) ?_, hin, .statement hcall hmem hkind' rfl⟩
    exact htrim.solid _ (mem_nodes_of_within hwithin) (by simp [hkind', Kind.isSolid])

end Request

/-! ## The plan for a callback -/

/-- The names of methods begin and end with a visible byte. -/
theorem Rule.isTrimmed_of_find? {method : String} (h : (Rule.find? method).isSome) :
    (Source.mk method).isTrimmed (Source.mk method).whole = true := by
  obtain ⟨rule, hrule⟩ := Option.isSome_iff_exists.mp h
  have hall : ∀ rule ∈ Rule.all,
      (Source.mk rule.method).isTrimmed (Source.mk rule.method).whole = true := by
    decide +kernel
  rw [← Rule.method_of_find? hrule]
  exact hall rule (List.mem_of_find?_eq_some hrule)

namespace Callback

open Context

variable {source : Source} {tree : Tree} {callback first : Node} {completion : Bool}
  {change : Change}

/-- The names of a context begin and end with a visible byte. -/
theorem Local.isTrimmed {name : Node} (htrim : tree.Trimmed source)
    (hname : Within (root tree) name) (h : Local source first name) :
    source.isTrimmed name.span = true := by
  have hidentifier : name.kind = .identifier → source.isTrimmed name.span = true := by
    intro hkind
    exact htrim.solid _ (mem_nodes_of_within hname) (by simp [hkind, Kind.isSolid])
  cases h with
  | named hkind => exact hidentifier hkind
  | member _ hpattern hmember hrule =>
      obtain ⟨element, _, hread⟩ := exists_element hpattern hmember
      rcases ofElement?_cases hread with ⟨hsame, _, hmethod⟩ | ⟨_, _, hkind⟩
      · rw [hmethod, ← hsame] at hrule
        exact isTrimmed_of_text (Rule.isTrimmed_of_find? hrule)
      · exact hidentifier hkind

/-- So do the references to them. -/
theorem Local.isTrimmed_reference {name body reference : Node} {binding : BindingId}
    (h : Local source first name) (htrim : tree.Trimmed source) (hname : Within (root tree) name)
    (hdeclared : (ScopeTable.build source tree).declaredAt? name = some binding)
    (href : reference ∈ (ScopeTable.build source tree).references source body binding) :
    source.isTrimmed reference.span = true := by
  obtain ⟨htext, hempty⟩ :=
    (ScopeTable.sound_build source tree).text_of_mem_references hname hdeclared href
  rw [isTrimmed_of_text_eq htext hempty]
  exact h.isTrimmed htrim hname

/-- The node that a parameter change is about is no part of a `switch`. -/
theorem plain_of_patternOf
    (h : (patternOf first).kind = .identifier ∨ (patternOf first).kind = .objectPattern) :
    first.kind ≠ .switchCase ∧ first.kind ≠ .switchDefault := by
  constructor
  · intro hkind
    simp [patternOf, hkind] at h
  · intro hkind
    simp [patternOf, hkind] at h

/-- The node that a change in the plan for a callback is about: one that goes back to a reference in
the body, the first parameter, or the list of parameters. -/
inductive Spot (table : ScopeTable) (source : Source) (callback first body : Node)
    (change : Change) : Node → Prop
  | reference {name reference node : Node} {binding : BindingId} : Local source first name →
      table.declaredAt? name = some binding → reference ∈ table.references source body binding →
      Request.About reference change node → Spot table source callback first body change node
  | parameter : Spot table source callback first body change first
  | list {list : Node} : callback.child? .parameters = some list →
      Spot table source callback first body change list

/-- Every change in the plan for a callback is at a site. -/
theorem site_of_plan (hnest : tree.WellNested source) (htrim : tree.Trimmed source)
    (hcallback : Within (root tree) callback) (hliteral : callback.kind.isCallbackLiteral = true)
    (h : change ∈ (plan (ScopeTable.build source tree) source callback completion).changes) :
    ∃ first rest body node, callback.parameters = first :: rest ∧
      ((patternOf first).kind = .identifier ∨ (patternOf first).kind = .objectPattern) ∧
      callback.child? .body = some body ∧ Site source tree node (change.span source) ∧
      Spot (ScopeTable.build source tree) source callback first body change node := by
  obtain ⟨first, rest, body, hparameters, hpattern, hbody, horigin⟩ := origin_of_plan h
  have hfirst : first ∈ callback.parameters := by simp [hparameters]
  obtain ⟨hbelow, hne⟩ := below_of_mem_parameters hfirst
  have hbodymem := mem_children_of_child? hbody
  have hparams : ∀ node ∈ callback.parameterNodes, source.isTrimmed node.span = true :=
    htrim.parameters callback (mem_nodes_of_within hcallback) hliteral
  have hroot : ∀ {node : Node}, Within callback node → node ≠ callback → node ≠ root tree := by
    rintro node hin hne rfl
    exact hne (hin.antisymm hcallback).symm
  have hparameter : Site source tree first first.span :=
    .of_node hnest (hcallback.trans hbelow) (hroot hbelow hne) (plain_of_patternOf hpattern)
      (hparams first (List.mem_append_right _ hfirst))
  cases horigin with
  | @reference name reference binding _ hlocal hdeclared href hrequest =>
      have hname : Within (root tree) name := (hcallback.trans hbelow).trans hlocal.within
      obtain ⟨_, _, hin, hkind, _⟩ := ScopeTable.mem_references_iff.mp href
      obtain ⟨node, hsite, _, habout⟩ := hrequest.site hnest htrim hcallback hliteral hbodymem hin
        hkind (hlocal.isTrimmed_reference htrim hname hdeclared href)
      exact ⟨first, rest, body, node, hparameters, hpattern, hbody, hsite,
        .reference hlocal hdeclared href habout⟩
  | rename =>
      exact ⟨first, rest, body, first, hparameters, hpattern, hbody, hparameter, .parameter⟩
  | @remove node hnode _ =>
      rcases hnode with hnode | hnode
      · have hsame : first = node := by simpa [parameters, hnode] using hfirst
        rw [← hsame]
        exact ⟨first, rest, body, first, hparameters, hpattern, hbody, hparameter, .parameter⟩
      · have hmem := mem_children_of_child? hnode
        have hin : Within callback node := .of_mem_children hmem
        have hne' : node ≠ callback := by
          rintro rfl
          exact absurd (id_bounds_of_mem_children hmem).1 (Nat.lt_irrefl _)
        have hplain : ∀ kind, kind = .switchCase ∨ kind = .switchDefault → node.kind ≠ kind := by
          rintro kind hkind rfl
          have hcases := hnest.cases node (mem_nodes_of_within (hcallback.trans hin)) hkind
          simp only [parent?_of_mem_children hmem, Option.any_some, beq_iff_eq] at hcases
          simp [hcases, Kind.isCallbackLiteral] at hliteral
        have htrimmed := hparams node (List.mem_append_left _ (by simp [hnode]))
        exact ⟨first, rest, body, node, hparameters, hpattern, hbody,
          .of_node hnest (hcallback.trans hin) (hroot hin hne')
            ⟨hplain _ (.inl rfl), hplain _ (.inr rfl)⟩ htrimmed, .list hnode⟩

end Callback

/-! ## The plan for a file -/

namespace Migration

variable {source : Source} {tree : Tree} {options : Options} {framework : Framework}
  {change : Change}

/-- The callee of a registration is a site. -/
theorem site_of_callee (hnest : tree.WellNested source) (htrim : tree.Trimmed source)
    {call : Node} {registration : Registration} (hcall : Within (root tree) call)
    (hof : Registration.ofCall? (ScopeTable.build source tree) source framework call =
      some registration) :
    Site source tree registration.callee registration.callee.span := by
  obtain ⟨_, hcallee, _, _, _, _, hchain, _⟩ := Registration.ofCall?_eq_some hof
  have hmem := mem_children_of_child? hcallee
  have hwithin := hcall.child hmem
  refine .of_node hnest hwithin (Within.self.ne_root hmem) ?_
    (htrim.solid _ (mem_nodes_of_within hwithin) ?_)
  · rcases Registration.kind_of_memberChain? hchain with hkind | hkind <;> simp [hkind]
  · rcases Registration.kind_of_memberChain? hchain with hkind | hkind <;>
      simp [hkind, Kind.isSolid]

/-- Every change in the plan for a file is at a site. -/
theorem site_of_origin (hnest : tree.WellNested source) (htrim : tree.Trimmed source)
    (hdetect : Framework.detect?
      (Import.scan (ScopeTable.build source tree) source (root tree)) options = some framework)
    (h : Origin source tree framework change) :
    ∃ node, Site source tree node (change.span source) := by
  cases h with
  | imports hstatement =>
      obtain ⟨hmem, himports⟩ := imports_of_mem_statements hdetect hstatement
      have hwithin := Within.of_mem_children hmem
      have hsolid := himports.isSolid
      refine ⟨_, .of_rootStatement hmem ⟨?_, ?_⟩
        (htrim.solid _ (mem_nodes_of_within hwithin) hsolid)⟩
      · intro hkind
        simp [hkind, Kind.isSolid] at hsolid
      · intro hkind
        simp [hkind, Kind.isSolid] at hsolid
  | callee hcall hof _ => exact ⟨_, site_of_callee hnest htrim hcall hof⟩
  | callback hcall hof _ hcallback hchange =>
      obtain ⟨hliteral, list, hlist, _, hmem⟩ := Registration.callback_of_ofCall? hof hcallback
      have hwithin := (hcall.child (mem_children_of_child? hlist)).child
        (mem_children_of_mem_namedChildren hmem)
      obtain ⟨_, _, _, node, _, _, _, hsite, _⟩ :=
        Callback.site_of_plan hnest htrim hwithin hliteral hchange
      exact ⟨node, hsite⟩

/-- Changes that a file asks for never conflict, in whatever order. -/
theorem exists_applyAll_of_origin (hnest : tree.WellNested source) (htrim : tree.Trimmed source)
    (hdetect : Framework.detect?
      (Import.scan (ScopeTable.build source tree) source (root tree)) options = some framework)
    {asked : List Change} (h : ∀ change ∈ asked, Origin source tree framework change) :
    ∃ changes, ChangeSet.applyAll { source } asked = .ok changes := by
  apply Site.exists_applyAll hnest
  intro change hchange
  exact site_of_origin hnest htrim hdetect (h change hchange)

/-- No two edits of a plan conflict. -/
theorem exists_applyAll_plan? (hnest : tree.WellNested source) (htrim : tree.Trimmed source)
    {plan : Plan} (hplan : plan? source tree options = some plan) :
    ∃ changes, ChangeSet.applyAll { source } plan.changes = .ok changes := by
  obtain ⟨framework, hdetect, _⟩ := Option.map_eq_some_iff.mp hplan
  refine exists_applyAll_of_origin hnest htrim hdetect ?_
  intro change hchange
  obtain ⟨found, hfound, horigin⟩ := origin_of_plan? hplan hchange
  rw [hdetect] at hfound
  cases hfound
  exact horigin

theorem exists_migrate (options : Options) (hnest : tree.WellNested source)
    (htrim : tree.Trimmed source) : ∃ migrated, migrate source tree options = .ok migrated := by
  unfold migrate
  split
  · rename_i plan hplan
    obtain ⟨changes, hchanges⟩ := exists_applyAll_plan? hnest htrim hplan
    simp only [carryOut, hchanges]
    exact ⟨_, rfl⟩
  · exact ⟨_, rfl⟩

end Migration

/-- A file whose tree keeps the parser's promises is migrated: no two edits ever conflict. -/
theorem exists_migrated (source : Source) (tree : Tree) (options : Options)
    (hnest : tree.WellNested source) (htrim : tree.Trimmed source) :
    (∃ migrated, migrate source tree options = .ok migrated) ∧
      ∀ parser path, Parser.parse parser path source.text = .ok tree →
        ∃ migrated, migrateFile parser path source.text options = .ok migrated := by
  have hmigrate := Migration.exists_migrate options hnest htrim
  refine ⟨hmigrate, ?_⟩
  intro parser path hparse
  obtain ⟨migrated, hmigrated⟩ := hmigrate
  exact ⟨migrated, by simp only [migrateFile, hparse, hmigrated]⟩

theorem exists_migrated_sample :
    (Sample.tree.WellNested Sample.source ∧ Sample.tree.Trimmed Sample.source) ∧
      (∃ migrated, migrate Sample.source Sample.tree {} = .ok migrated) ∧
      ∀ parser path, Parser.parse parser path Sample.source.text = .ok Sample.tree →
        ∃ migrated, migrateFile parser path Sample.source.text {} = .ok migrated :=
  ⟨by decide +kernel,
    exists_migrated Sample.source Sample.tree {} (by decide +kernel) (by decide +kernel)⟩

end JestMigration
