/-
# `Proofs.Migration.Independence` — registrations in any order

All registrations of a file write into one record of edits, where the first edit
of a span wins, and into one list of diagnostics, where those of one place keep
their order.  Neither makes the order of the registrations matter: the edits and
the places of each go back to leaves that no other registration owns.  Two
registrations that ask for the same span ask for the same edit, and the text
comes out the same in every order.

For diagnostics there is an exception.  The scope analysis does not look below
an import, so in a registration inside the attributes of an import the names of
a pattern are not declared.  Such a name may be taken for a reference of a test
around it, and then two registrations report the same place.
-/
import JestMigration.Proofs.ChangeSet.Order
import JestMigration.Proofs.Diagnostic.Sorting
import JestMigration.Proofs.Migration.Ownership

namespace JestMigration

open Node ScopeTable

/-! ## Edits of one span -/

namespace ChangeSet

theorem requested_append (source : Source) (first second : List Change) :
    requested source (first ++ second) = requested source first ++ requested source second :=
  List.filterMap_append

/-- The first edit of a span is the first in the first group that has one. -/
theorem first?_requested_flatMap {α : Type} (source : Source) (asked : α → List Change)
    (groups : List α) (span : Span) :
    first? (requested source (groups.flatMap asked)) span =
      groups.findSome? fun group => first? (requested source (asked group)) span := by
  rw [requested, List.filterMap_flatMap, first?, List.find?_flatMap]
  rfl

theorem exists_of_first?_requested {source : Source} {asked : List Change} {span : Span}
    {edit : Edit} (h : first? (requested source asked) span = some edit) :
    ∃ change ∈ asked, change.edit? source = some edit ∧ change.span source = span := by
  obtain ⟨change, hmem, hedit⟩ := List.mem_filterMap.mp (List.mem_of_find?_eq_some h)
  exact ⟨change, hmem, hedit, (Change.span_of_edit? hedit).symm.trans (span_of_first? h)⟩

end ChangeSet

section

variable {source : Source} {tree : Tree} {options : Options} {framework : Framework}
  {a b : Registration}

/-- Registrations that ask for edits of one span ask for the same one first. -/
theorem Registered.first?_eq (hnest : tree.WellNested source) (htrim : tree.Trimmed source)
    (hlead : tree.Leading source)
    (hdetect : Framework.detect? (Import.scan (build source tree) source (root tree)) options =
      some framework)
    (ha : Registered source tree framework a) (hb : Registered source tree framework b)
    {span : Span} {x y : Edit}
    (hx : ChangeSet.first? (ChangeSet.requested source
      (a.plan (build source tree) source).changes) span = some x)
    (hy : ChangeSet.first? (ChangeSet.requested source
      (b.plan (build source tree) source).changes) span = some y) : x = y := by
  obtain ⟨change, hmem, hedit, hspan⟩ := ChangeSet.exists_of_first?_requested hx
  obtain ⟨change', hmem', hedit', hspan'⟩ := ChangeSet.exists_of_first?_requested hy
  obtain ⟨leaf, hleaf, howns, hmarked⟩ := exists_mark hnest htrim hlead ha hmem
  obtain ⟨leaf', hleaf', howns', hmarked'⟩ := exists_mark hnest htrim hlead hb hmem'
  rcases hmarked.unique hnest hlead hleaf hleaf' hmarked' (hspan.trans hspan'.symm) with rfl | rfl
  · cases howns.unique hlead hdetect ha hb howns'
    exact Option.some.inj (hx.symm.trans hy)
  · exact Option.some.inj (hedit.symm.trans hedit')

/-! ## Diagnostics of one place -/

theorem Diagnostic.IsAt.rank {node : Node} {diagnostic : Diagnostic}
    (h : diagnostic.IsAt source node) :
    diagnostic.rank = (source.lineAt node.span.start, node.span.start + 1) := by
  obtain ⟨finding, rfl⟩ := h
  rfl

/-- Visited registrations that report something of one rank are one. -/
theorem Registered.eq_of_rank (hnest : tree.WellNested source) (hlead : tree.Leading source)
    (hdetect : Framework.detect? (Import.scan (build source tree) source (root tree)) options =
      some framework)
    (ha : Registered source tree framework a) (hb : Registered source tree framework b)
    (hvisited : a.call.isVisited = true) (hvisited' : b.call.isVisited = true) {x y : Diagnostic}
    (hx : x ∈ (a.plan (build source tree) source).diagnostics)
    (hy : y ∈ (b.plan (build source tree) source).diagnostics) (hrank : x.rank = y.rank) :
    a = b := by
  obtain ⟨leaf, node, hleaf, howns, hat, hstart⟩ := exists_place hlead ha hvisited hx
  obtain ⟨leaf', node', hleaf', howns', hat', hstart'⟩ := exists_place hlead hb hvisited' hy
  have hplaces : node.span.start = node'.span.start := by
    have hsecond := congrArg Prod.snd hrank
    rw [hat.rank, hat'.rank] at hsecond
    exact Nat.succ.inj hsecond
  have hsame : leaf.span.start = leaf'.span.start := by
    rw [← hstart, ← hstart', hplaces]
  cases hleaf.eq_of_start hnest hleaf' hsame
  exact howns.unique hlead hdetect ha hb howns'

end

/-! ## The plan for a file -/

namespace Migration

/-- The plan for a file with its registrations in the given order. -/
def planIn (source : Source) (tree : Tree) (framework : Framework) (order : List Registration) :
    Plan :=
  importPlan (Import.scan (build source tree) source (root tree)) framework ++
    order.flatMap (Registration.plan (build source tree) source)

variable {source : Source} {tree : Tree} {options : Options} {framework : Framework}
  {order other : List Registration}

theorem migrate_eq (hdetect : Framework.detect? (Import.scan (build source tree) source (root tree))
      options = some framework) :
    migrate source tree options = carryOut source (planIn source tree framework
      (registrations (build source tree) source framework (root tree))) := by
  simp only [migrate, plan?, hdetect, Option.map_some, planIn]

theorem carryOut_eq {plan : Plan} {changes : ChangeSet}
    (h : ChangeSet.applyAll { source } plan.changes = .ok changes) :
    carryOut source plan = .ok ⟨changes.render, changes.render != source.text,
      Diagnostic.sorted plan.diagnostics⟩ := by
  simp only [carryOut, h]

theorem changes_planIn : (planIn source tree framework order).changes =
    (importPlan (Import.scan (build source tree) source (root tree)) framework).changes ++
      order.flatMap fun registration => (registration.plan (build source tree) source).changes := by
  rw [planIn, Plan.changes_append, Plan.changes_flatMap]

theorem diagnostics_planIn : (planIn source tree framework order).diagnostics =
    (importPlan (Import.scan (build source tree) source (root tree)) framework).diagnostics ++
      order.flatMap fun registration =>
        (registration.plan (build source tree) source).diagnostics := by
  rw [planIn, Plan.diagnostics_append, Plan.diagnostics_flatMap]

theorem origin_of_planIn {change : Change}
    (horder : ∀ registration ∈ order, Registered source tree framework registration)
    (h : change ∈ (planIn source tree framework order).changes) :
    Origin source tree framework change := by
  rw [changes_planIn, changes_importPlan] at h
  rcases List.mem_append.mp h with h | h
  · obtain ⟨statement, hstatement, rfl⟩ := List.mem_map.mp h
    exact .imports hstatement
  · obtain ⟨registration, hmem, h⟩ := List.mem_flatMap.mp h
    have hregistered := horder registration hmem
    exact origin_of_registration hregistered.within hregistered.read h

/-- In every order the plan can be carried out. -/
theorem exists_applyAll_planIn (hnest : tree.WellNested source) (htrim : tree.Trimmed source)
    (hdetect : Framework.detect? (Import.scan (build source tree) source (root tree)) options =
      some framework)
    (horder : ∀ registration ∈ order, Registered source tree framework registration) :
    ∃ changes, ChangeSet.applyAll { source } (planIn source tree framework order).changes =
      .ok changes :=
  exists_applyAll_of_origin hnest htrim hdetect fun _ hchange => origin_of_planIn horder hchange

/-- In every order the first edit of a span is the same. -/
theorem first?_planIn (hnest : tree.WellNested source) (htrim : tree.Trimmed source)
    (hlead : tree.Leading source)
    (hdetect : Framework.detect? (Import.scan (build source tree) source (root tree)) options =
      some framework)
    (horder : ∀ registration ∈ order, Registered source tree framework registration)
    (hperm : order.Perm other) (span : Span) :
    ChangeSet.first? (ChangeSet.requested source (planIn source tree framework order).changes)
        span =
      ChangeSet.first? (ChangeSet.requested source (planIn source tree framework other).changes)
        span := by
  have hgroups : order.findSome? (fun registration => ChangeSet.first? (ChangeSet.requested source
        (registration.plan (build source tree) source).changes) span) =
      other.findSome? fun registration => ChangeSet.first? (ChangeSet.requested source
        (registration.plan (build source tree) source).changes) span :=
    findSome?_eq_of_perm hperm fun a ha b hb x y hx hy =>
      (horder a ha).first?_eq hnest htrim hlead hdetect (horder b hb) hx hy
  rw [changes_planIn, changes_planIn, ChangeSet.requested_append, ChangeSet.requested_append,
    ChangeSet.first?, ChangeSet.first?, List.find?_append, List.find?_append, ← ChangeSet.first?,
    ← ChangeSet.first?, ← ChangeSet.first?, ChangeSet.first?_requested_flatMap,
    ChangeSet.first?_requested_flatMap, hgroups]

/-- In every order the same diagnostics are raised. -/
theorem diagnostics_planIn_perm (hperm : order.Perm other) :
    (planIn source tree framework order).diagnostics.Perm
      (planIn source tree framework other).diagnostics := by
  rw [diagnostics_planIn, diagnostics_planIn]
  exact (hperm.flatMap_right _).append_left _

/-- In every order visited registrations lead to the same report. -/
theorem sorted_planIn (hnest : tree.WellNested source) (hlead : tree.Leading source)
    (hdetect : Framework.detect? (Import.scan (build source tree) source (root tree)) options =
      some framework)
    (horder : ∀ registration ∈ order, Registered source tree framework registration)
    (hvisited : ∀ registration ∈ order, registration.call.isVisited = true)
    (hperm : order.Perm other) :
    Diagnostic.sorted (planIn source tree framework order).diagnostics =
      Diagnostic.sorted (planIn source tree framework other).diagnostics := by
  refine Diagnostic.sorted_eq_of_filter fun rank => ?_
  rw [diagnostics_planIn, diagnostics_planIn, List.filter_append, List.filter_append,
    List.filter_flatMap, List.filter_flatMap]
  congr 1
  refine flatMap_eq_of_perm hperm ?_
  intro a ha b hb hx hy
  obtain ⟨x, hx⟩ := List.exists_mem_of_ne_nil _ hx
  obtain ⟨y, hy⟩ := List.exists_mem_of_ne_nil _ hy
  obtain ⟨hx, hrank⟩ := List.mem_filter.mp hx
  obtain ⟨hy, hrank'⟩ := List.mem_filter.mp hy
  rw [beq_iff_eq] at hrank hrank'
  exact (horder a ha).eq_of_rank hnest hlead hdetect (horder b hb) (hvisited a ha) (hvisited b hb)
    hx hy (hrank.trans hrank'.symm)

end Migration

/-- A file may be migrated with its registrations in any order: the text is the same, and the same
diagnostics are reported.  Their order is the same too, unless some registration is part of an
import. -/
theorem migrate_in_any_order (source : Source) (tree : Tree) (options : Options)
    (framework : Framework) (order : List Registration) (hnest : tree.WellNested source)
    (htrim : tree.Trimmed source) (hlead : tree.Leading source)
    (hdetect : Framework.detect? (Import.scan (build source tree) source (root tree)) options =
      some framework)
    (horder : order.Perm
      (Migration.registrations (build source tree) source framework (root tree))) :
    ∃ migrated reordered, migrate source tree options = .ok migrated ∧
      Migration.carryOut source (Migration.planIn source tree framework order) = .ok reordered ∧
      reordered.output = migrated.output ∧ reordered.changed = migrated.changed ∧
      reordered.diagnostics.Perm migrated.diagnostics ∧
      ((∀ registration ∈ order, registration.call.isVisited = true) → reordered = migrated) := by
  have hregistered : ∀ registration ∈ order, Registered source tree framework registration :=
    fun _ hmem => Migration.registered_of_mem (horder.mem_iff.mp hmem)
  obtain ⟨migrated, hmigrated⟩ := Migration.exists_applyAll_planIn hnest htrim hdetect
    fun _ hmem => Migration.registered_of_mem hmem
  obtain ⟨reordered, hreordered⟩ :=
    Migration.exists_applyAll_planIn hnest htrim hdetect hregistered
  have hrender : reordered.render = migrated.render :=
    ChangeSet.render_eq_of_first? hreordered hmigrated
      (Migration.first?_planIn hnest htrim hlead hdetect hregistered horder)
  have hmigrate := (Migration.migrate_eq hdetect).trans (Migration.carryOut_eq hmigrated)
  refine ⟨_, _, hmigrate, Migration.carryOut_eq hreordered, hrender, ?_, ?_, ?_⟩
  · simp only [hrender]
  · exact Diagnostic.sorted_perm_of_perm (Migration.diagnostics_planIn_perm horder)
  · intro hvisited
    rw [hrender, Migration.sorted_planIn hnest hlead hdetect hregistered hvisited horder]

theorem migrate_in_any_order_sample :
    (Sample.tree.WellNested Sample.source ∧ Sample.tree.Trimmed Sample.source ∧
      Sample.tree.Leading Sample.source) ∧
    ∃ framework order migrated, Framework.detect?
        (Import.scan (build Sample.source Sample.tree) Sample.source (root Sample.tree)) {} =
          some framework ∧
      order = (Migration.registrations (build Sample.source Sample.tree) Sample.source framework
        (root Sample.tree)).reverse ∧ order.length = 3 ∧
      (∀ registration ∈ order, registration.call.isVisited = true) ∧
      migrate Sample.source Sample.tree {} = .ok migrated ∧
      Migration.carryOut Sample.source
        (Migration.planIn Sample.source Sample.tree framework order) = .ok migrated := by
  have hfound : ((Framework.detect? (Import.scan (build Sample.source Sample.tree) Sample.source
      (root Sample.tree)) {}).any fun framework =>
        let order := (Migration.registrations (build Sample.source Sample.tree) Sample.source
          framework (root Sample.tree)).reverse
        order.length == 3 && order.all fun registration => registration.call.isVisited) = true := by
    decide +kernel
  simp only [Option.any_eq_true, Bool.and_eq_true, beq_iff_eq, List.all_eq_true] at hfound
  obtain ⟨framework, hdetect, hlength, hvisited⟩ := hfound
  have hnest : Sample.tree.WellNested Sample.source := by decide +kernel
  have htrim : Sample.tree.Trimmed Sample.source := by decide +kernel
  have hlead : Sample.tree.Leading Sample.source := by decide +kernel
  obtain ⟨migrated, reordered, hmigrate, hcarry, _, _, _, hsame⟩ := migrate_in_any_order
    Sample.source Sample.tree {} framework _ hnest htrim hlead hdetect (List.reverse_perm _)
  exact ⟨⟨hnest, htrim, hlead⟩, framework, _, migrated, hdetect, rfl, hlength, hvisited, hmigrate,
    hsame hvisited ▸ hcarry⟩

/-! ## A test in the attributes of an import -/

namespace Attribute

open Sample (node token name quoted)

/-- A test whose body has an import, and in its attributes a test with a member of the same name. -/
def source : Source where
  text := "import test from 'ava';\ntest((\x7bok\x7d) => \x7b\n" ++
    "  import 'y' with \x7bz: test((\x7bfoo: ok\x7d) => \x7b\x7d)\x7d;\n\x7d);\n"

/-- A call of the test function with one callback for its argument. -/
def call (start stop : Nat) (field? : Option Field) (callback : Tree) : Tree :=
  node .callExpression start stop field?
    [ name start (start + 4) (some .function),
      node .arguments (start + 4) stop (some .arguments)
        [token "(" (start + 4) (start + 5), callback, token ")" (stop - 1) stop] ]

/-- A function of one object pattern with one element. -/
def arrow (start close stop : Nat) (element : Tree) (statements : List Tree) : Tree :=
  node .arrowFunction start stop none
    [ node (.other "formal_parameters") start close (some .parameters)
        [ token "(" start (start + 1),
          node .objectPattern (start + 1) (close - 1) none
            [ token "\x7b" (start + 1) (start + 2), element, token "\x7d" (close - 2) (close - 1) ],
          token ")" (close - 1) close ],
      token "=>" (close + 1) (close + 3),
      node .statementBlock (close + 4) stop (some .body)
        (token "\x7b" (close + 4) (close + 5) :: statements ++ [token "\x7d" (stop - 1) stop]) ]

/-- The tree of the file. -/
def tree : Tree :=
  node .program 0 93 none
    [ node .importStatement 0 23 none
        [ token "import" 0 6, node .importClause 7 11 none [name 7 11 none], token "from" 12 16,
          quoted 17 22 (some .source), token ";" 22 23 ],
      node .expressionStatement 24 92 none
        [ call 24 91 none
            (arrow 29 35 90 (node .shorthandPattern 31 33 none [])
              [ node .importStatement 43 88 none
                  [ token "import" 43 49, quoted 50 53 (some .source),
                    node (.other "import_attribute") 54 87 none
                      [ token "with" 54 58,
                        node (.other "object") 59 87 none
                          [ token "\x7b" 59 60,
                            node (.other "pair") 60 86 none
                              [ node .propertyIdentifier 60 61 (some .key) [], token ":" 61 62,
                                call 63 86 (some .value)
                                  (arrow 68 79 85
                                    (node .pairPattern 70 77 none
                                      [ node .propertyIdentifier 70 73 (some .key) [],
                                        token ":" 73 74, name 75 77 (some .value) ])
                                    []) ],
                            token "\x7d" 86 87 ] ],
                    token ";" 87 88 ] ]),
          token ";" 91 92 ] ]

/-- The outer test reports the name as a reference of its own, the inner one as a name without a
rule, and the one that comes first is reported first. -/
theorem diagnostics_reversed :
    (tree.WellNested source ∧ tree.Trimmed source ∧ tree.Leading source) ∧
    ∃ framework migrated reordered, Framework.detect?
        (Import.scan (build source tree) source (root tree)) {} = some framework ∧
      migrate source tree {} = .ok migrated ∧
      Migration.carryOut source (Migration.planIn source tree framework
        (Migration.registrations (build source tree) source framework (root tree)).reverse) =
          .ok reordered ∧
      migrated.diagnostics.map Diagnostic.display =
        [ "line 3: \"t.ok\" is only supported when called directly",
          "line 3: \"t.foo\" is currently not supported" ] ∧
      reordered.diagnostics = migrated.diagnostics.reverse := by
  have hnest : tree.WellNested source := by decide +kernel
  have htrim : tree.Trimmed source := by decide +kernel
  -- Both diagnostics have one rank, so they are reported in the order in which they are raised.
  have hfound : ((Framework.detect? (Import.scan (build source tree) source (root tree)) {}).any
      fun framework =>
        let order := Migration.registrations (build source tree) source framework (root tree)
        let report := Diagnostic.collect (Migration.planIn source tree framework order).diagnostics
        let reversed :=
          Diagnostic.collect (Migration.planIn source tree framework order.reverse).diagnostics
        decide (report.Pairwise fun a b => a.precedes b = true) &&
          decide (reversed.Pairwise fun a b => a.precedes b = true) &&
          report.map Diagnostic.display ==
            [ "line 3: \"t.ok\" is only supported when called directly",
              "line 3: \"t.foo\" is currently not supported" ] &&
          reversed == report.reverse) = true := by
    decide +kernel
  simp only [Option.any_eq_true, Bool.and_eq_true, beq_iff_eq, decide_eq_true_eq] at hfound
  obtain ⟨framework, hdetect, ⟨⟨hordered, hordered'⟩, hreport⟩, hreversed⟩ := hfound
  rw [← Diagnostic.sorted_of_pairwise hordered] at hreport hreversed
  rw [← Diagnostic.sorted_of_pairwise hordered'] at hreversed
  obtain ⟨changes, hchanges⟩ := Migration.exists_applyAll_planIn hnest htrim hdetect
    fun _ hmem => Migration.registered_of_mem hmem
  obtain ⟨others, hothers⟩ := Migration.exists_applyAll_planIn hnest htrim hdetect
    fun _ hmem => Migration.registered_of_mem (List.mem_reverse.mp hmem)
  exact ⟨⟨hnest, htrim, by decide +kernel⟩, framework, _, _, hdetect,
    (Migration.migrate_eq hdetect).trans (Migration.carryOut_eq hchanges),
    Migration.carryOut_eq hothers, hreport, hreversed⟩

end Attribute

end JestMigration
