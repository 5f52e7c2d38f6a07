/-
# `Proofs.Callback.Unmapped` — methods without a rule pass through

A call of a context method that has no rule stays as it is and is reported where
it begins.  Which calls these are is said of the tree around a reference
(`Proofs.Callback.Uses`); that each has a report of its own and that its callee is
edited in completion style only is put together from `Proofs.Callback.Named`.
-/
import JestMigration.Proofs.Callback.Named

namespace JestMigration

open Node

namespace Callback

open Context

/-- In the body of a callback with a named context, the calls of context methods without a rule pass
through.  Carrying out the plan reports each of them once, in order, where the call begins.  Inside
their callees it edits nothing, but in completion style the reference gets the name of the
completion callback.  And the edit that is due at any reference is recorded, whatever stands around
it. -/
theorem unmapped_calls_pass_through (source : Source) (tree : Tree) (callback first body : Node)
    (rest : List Node) (binding : BindingId) (completion : Bool)
    (hnest : tree.WellNested source) (hleaf : tree.LeafNames) (hplain : tree.PlainMembers)
    (hcallback : Within (root tree) callback) (hliteral : callback.kind.isCallbackLiteral = true)
    (hparameters : callback.parameters = first :: rest)
    (hkind : (patternOf first).kind = .identifier)
    (hdeclared : (ScopeTable.build source tree).declaredAt? (patternOf first) = some binding)
    (hbody : callback.child? .body = some body) :
    (tree.Trimmed source → ∃ ledger, Ledger.run ⟨{ source }, []⟩
      (plan (ScopeTable.build source tree) source callback completion) = .ok ledger) ∧
    ∀ ledger, Ledger.run ⟨{ source }, []⟩
        (plan (ScopeTable.build source tree) source callback completion) = .ok ledger →
      (∃ unmapped, unmapped.Sublist
          ((ScopeTable.build source tree).references source body binding) ∧
        unmapped.Nodup ∧
        (∀ reference ∈ (ScopeTable.build source tree).references source body binding,
          (reference ∈ unmapped ↔
            ∃ member call name, Unmapped source tree reference member call name)) ∧
        List.Forall₂
          (fun reference diagnostic => ∃ member call name,
            Unmapped source tree reference member call name ∧
            diagnostic = .ofNode source call ("\"" ++ (patternOf first).text source ++ "." ++ name ++
              "\" is currently not supported"))
          unmapped
          (ledger.log.filter fun diagnostic => Finding.rejectsMember diagnostic.message)) ∧
      (∀ reference ∈ (ScopeTable.build source tree).references source body binding,
        ∀ member call name, Unmapped source tree reference member call name →
        ∀ edit, edit ∈ ledger.changes.edits ∧ member.span.contains edit.span = true ↔
          Completing source tree body binding completion ∧
            reference.text source ≠ completionName ∧
            edit = .replace reference.span completionName) ∧
      (tree.Trimmed source → tree.Leading source →
        ∀ reference ∈ (ScopeTable.build source tree).references source body binding,
        ∀ change edit, Due source tree ((patternOf first).text source)
            (Completing source tree body binding completion) reference change →
          change.edit? source = some edit → edit ∈ ledger.changes.edits) := by
  have h : Named source tree callback first body rest binding :=
    ⟨hnest, hleaf, hplain, hcallback, hliteral, hparameters, hkind, hdeclared, hbody⟩
  refine ⟨?_, ?_⟩
  · intro htrim
    obtain ⟨changes, hrun⟩ := exists_applyAll_plan hnest htrim hcallback hliteral completion
    exact ⟨⟨changes, _⟩, Ledger.run_eq_ok_iff.mpr ⟨hrun, rfl⟩⟩
  · intro ledger hledger
    obtain ⟨hrun, hlog⟩ := Ledger.run_eq_ok_iff.mp hledger
    refine ⟨?_, ?_, ?_⟩
    · rw [hlog]
      exact h.exists_unmapped
    · intro reference href member call name hunmapped edit
      exact h.edit_in_callee_iff hrun href hunmapped
    · intro htrim hlead reference href change edit hdue hedit
      have huse := (Use.due_iff (h.mention href).1.within completing_iff).mp hdue
      exact h.mem_edits_of_change? htrim hlead hrun href huse hedit

end Callback

namespace Logging

open Sample (node token name quoted member statement arrow)
open Callback Context

/-- A test that logs twice on one line, first what an assertion gives. -/
def source : Source where
  text := "import test from 'ava';\ntest(t => \x7b t.log(t.ok(1)); t.log(2); \x7d);\n"

/-- The tree of the file. -/
def tree : Tree :=
  node .program 0 66 none
    [ node .importStatement 0 23 none
        [ token "import" 0 6, node .importClause 7 11 none [name 7 11 none], token "from" 12 16,
          quoted 17 22 (some .source), token ";" 22 23 ],
      statement 24 65 (name 24 28 (some .function))
        [ arrow 29 63
            [ statement 36 51 (member 36 37 41)
                [ node .callExpression 42 49 none
                    [ member 42 43 46,
                      node .arguments 46 49 (some .arguments)
                        [ token "(" 46 47, node (.other "number") 47 48 none [],
                          token ")" 48 49 ] ] ],
              statement 52 61 (member 52 53 57) [node (.other "number") 58 59 none []] ] ] ]

/-- The callback has two calls without a rule, and in one of them a call with a rule. -/
theorem exists_named : ∃ callback first body rest binding,
    Named source tree callback first body rest binding ∧
    ((((ScopeTable.build source tree).references source body binding).filter fun reference =>
      ((Use.classify source reference).report? source "t").isSome).length = 2) ∧
    (∀ reference ∈ (ScopeTable.build source tree).references source body binding,
      reference.text source ≠ completionName ∧ ¬ CompletesAt source reference) ∧
    ∃ reference ∈ (ScopeTable.build source tree).references source body binding, ∃ change edit,
      (Use.classify source reference).change? source ((patternOf first).text source) false
        reference = some change ∧ change.edit? source = some edit ∧ edit.span = ⟨42, 49⟩ := by
  have hfound : ((root tree).nodes.any fun callback =>
      callback.kind.isCallbackLiteral && callback.parameters.head?.any fun first =>
        (patternOf first).kind == .identifier && (callback.child? .body).any fun body =>
          ((ScopeTable.build source tree).declaredAt? (patternOf first)).any fun binding =>
            let found := (ScopeTable.build source tree).found source body binding
            (found.filter fun reference =>
              ((Use.classify source reference).report? source "t").isSome).length == 2 &&
            (found.all fun reference => reference.text source != completionName &&
              !(Use.classify source reference).needsCompletion) &&
            found.any fun reference => ((Use.classify source reference).change? source
              ((patternOf first).text source) false reference).any fun change =>
                (change.edit? source).any fun edit => edit.span == ⟨42, 49⟩) = true := by
    decide +kernel
  simp only [List.any_eq_true, Bool.and_eq_true, Option.any_eq_true, beq_iff_eq, List.all_eq_true,
    bne_iff_ne, Bool.not_eq_true', ← Bool.not_eq_true, Use.needsCompletion_iff] at hfound
  obtain ⟨callback, hcallback, hliteral, first, hfirst, hkind, body, hbody, binding, hdeclared,
    ⟨hlength, hidle⟩, reference, href, change, hchange, edit, hedit, hspan⟩ := hfound
  obtain ⟨rest, hparameters⟩ := List.head?_eq_some_iff.mp hfirst
  have hnamed : Named source tree callback first body rest binding :=
    ⟨by decide +kernel, by decide +kernel, by decide +kernel, mem_nodes_iff.mp hcallback, hliteral,
      hparameters, hkind, hdeclared, hbody⟩
  rw [← ScopeTable.references_eq_found hnamed.nest.nested
    (hnamed.within.trans (within_of_child? hbody))] at hlength hidle href
  exact ⟨callback, first, body, rest, binding, hnamed, hlength, hidle, reference, href, change,
    edit, hchange, hedit, hspan⟩

/-- Both calls are reported, and the assertion in the first one is rewritten.  Their callees stay as
they are, unless the context becomes the completion callback. -/
theorem unmapped_calls_pass_through_twice : ∃ callback body binding,
    (∃ ledger, Ledger.run ⟨{ source }, []⟩
        (plan (ScopeTable.build source tree) source callback false) = .ok ledger ∧
      (ledger.log.filter fun diagnostic =>
        Finding.rejectsMember diagnostic.message).length = 2 ∧
      (∃ edit ∈ ledger.changes.edits, edit.span = ⟨42, 49⟩) ∧
      ∃ reference ∈ (ScopeTable.build source tree).references source body binding,
        ∃ member call name, Unmapped source tree reference member call name ∧
          ∀ edit ∈ ledger.changes.edits, member.span.contains edit.span = false) ∧
    ∃ ledger, Ledger.run ⟨{ source }, []⟩
        (plan (ScopeTable.build source tree) source callback true) = .ok ledger ∧
      ∃ reference ∈ (ScopeTable.build source tree).references source body binding,
        ∃ member call name, Unmapped source tree reference member call name ∧
          Edit.replace reference.span completionName ∈ ledger.changes.edits := by
  obtain ⟨callback, first, body, rest, binding, h, hlength, hidle, asserted, hasserted, change,
    edit, hchange, hedit, hspan⟩ := exists_named
  have htrim : tree.Trimmed source := by decide +kernel
  have hlead : tree.Leading source := by decide +kernel
  obtain ⟨hexists, hledger⟩ := unmapped_calls_pass_through source tree callback first body rest
    binding false h.nest h.leaf h.plain h.within h.literal h.parameters h.kind h.declared h.child
  obtain ⟨hexists', hledger'⟩ := unmapped_calls_pass_through source tree callback first body rest
    binding true h.nest h.leaf h.plain h.within h.literal h.parameters h.kind h.declared h.child
  obtain ⟨ledger, hrun⟩ := hexists htrim
  obtain ⟨ledger', hrun'⟩ := hexists' htrim
  obtain ⟨⟨unmapped, hsublist, hnodup, hunmapped, hreports⟩, hcallee, hdue⟩ := hledger ledger hrun
  obtain ⟨_, hcallee', _⟩ := hledger' ledger' hrun'
  -- The two calls are those that the classification finds.
  have hcount : unmapped.length = 2 := by
    rw [← hlength]
    refine ((List.perm_ext_iff_of_nodup hnodup (h.nodup_references.filter _)).mpr ?_).length_eq
    intro reference
    rw [List.mem_filter]
    constructor
    · intro hmem
      have href := hsublist.subset hmem
      exact ⟨href, (Use.isSome_report?_iff (h.mention href).1.within).mpr
        ((hunmapped reference href).mp hmem)⟩
    · rintro ⟨href, hreport⟩
      exact (hunmapped reference href).mpr
        ((Use.isSome_report?_iff (h.mention href).1.within).mp hreport)
  obtain ⟨reference, hreference⟩ := List.exists_mem_of_length_pos (by omega : 0 < unmapped.length)
  have href := hsublist.subset hreference
  obtain ⟨member, call, name, huse⟩ := (hunmapped reference href).mp hreference
  refine ⟨callback, body, binding, ⟨ledger, hrun, ?_, ?_, reference, href, member, call, name, huse,
    ?_⟩, ledger', hrun', reference, href, member, call, name, huse, ?_⟩
  · rw [← hreports.length_eq, hcount]
  · have hrewrites := Use.rewrites_of_change? (h.mention hasserted).1.within hchange
    exact ⟨edit, hdue htrim hlead asserted hasserted change edit (.inl hrewrites) hedit, hspan⟩
  · intro edit hedit
    rw [← Bool.not_eq_true]
    intro hcontains
    rcases ((hcallee reference href member call name huse edit).mp ⟨hedit, hcontains⟩).1 with
      hfalse | ⟨other, hother, hcompletes⟩
    · exact absurd hfalse (by simp)
    · exact (hidle other hother).2 hcompletes
  · exact ((hcallee' reference href member call name huse _).mpr
      ⟨.inl rfl, (hidle reference href).1, rfl⟩).1

end Logging

end JestMigration
