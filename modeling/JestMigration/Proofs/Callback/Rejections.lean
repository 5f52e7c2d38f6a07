/-
# `Proofs.Callback.Rejections` — reports on members without a rule

Of all that is reported about a use, only the report on a member without a rule
has the words of `rejectsMember`: the other messages begin or end with something
else.  So picking out these messages leaves one report for each use without a
rule (`filter_diagnostics_plan`), and there is one just if the tree around the
reference says so (`isSome_report?_iff`).
-/
import JestMigration.Proofs.Callback.Uses

namespace JestMigration

open Node

/-! ## Messages -/

theorem getLast?_toList_append {text tail : String} {last : Char}
    (h : tail.toList.getLast? = some last) : (text ++ tail).toList.getLast? = some last := by
  rw [String.toList_append, List.getLast?_append, h, Option.some_or]

/-- A requirement in words ends with the word for arguments. -/
theorem Arity.getLast?_describe (arity : Arity) :
    arity.describe.toList.getLast? = some 't' ∨ arity.describe.toList.getLast? = some 's' := by
  have hcount : ∀ count, (arguments count).toList.getLast? = some 't' ∨
      (arguments count).toList.getLast? = some 's' := by
    intro count
    unfold arguments
    split
    · exact .inl (by decide)
    · exact .inr (getLast?_toList_append (by decide : " arguments".toList.getLast? = some 's'))
  cases arity with
  | exactly count => exact (hcount count).imp getLast?_toList_append getLast?_toList_append
  | atLeast count => exact (hcount count).imp getLast?_toList_append getLast?_toList_append
  | any => exact .inr (by decide)

namespace Finding

/-- The message says of something in quotes that it is not supported. -/
def rejectsMember (message : String) : Bool :=
  "\"".toList.isPrefixOf message.toList &&
    "\" is currently not supported".toList.isSuffixOf message.toList

theorem message_unsupportedMember (context method : String) :
    (unsupportedMember context method).message =
      "\"" ++ context ++ "." ++ method ++ "\" is currently not supported" := rfl

theorem rejectsMember_unsupportedMember (context method : String) :
    rejectsMember (unsupportedMember context method).message = true := by
  simp only [message_unsupportedMember, rejectsMember, Bool.and_eq_true,
    List.isPrefixOf_iff_prefix, List.isSuffixOf_iff_suffix, String.toList_append]
  refine ⟨?_, List.suffix_append _ _⟩
  simp only [List.append_assoc]
  exact List.prefix_append _ _

theorem rejectsMember_missingArguments (context method : String) (arity : Arity) :
    rejectsMember (missingArguments context method arity).message = false := by
  have hsupported : "\" is currently not supported".toList.getLast? = some 'd' := by decide
  rw [← Bool.not_eq_true, rejectsMember, Bool.and_eq_true, List.isSuffixOf_iff_suffix]
  rintro ⟨_, start, hmessage⟩
  -- The two texts end with different letters.
  have hlast := congrArg List.getLast? hmessage
  rw [List.getLast?_append, hsupported, Option.some_or] at hlast
  have hdescribe : (missingArguments context method arity).message.toList.getLast? =
      arity.describe.toList.getLast? := by
    rcases arity.getLast?_describe with h | h <;> exact (getLast?_toList_append h).trans h.symm
  rw [hdescribe] at hlast
  rcases arity.getLast?_describe with h | h <;> simp [h] at hlast

theorem rejectsMember_extraParameters : rejectsMember extraParameters.message = false := by
  decide

end Finding

namespace Context.Use

variable {source : Source} {context : String} {completion : Bool} {reference : Node}

/-- The report on a call without a rule. -/
def report? (source : Source) (context : String) : Use → Option Diagnostic
  | .unmapped call method =>
    some (.ofNode source call (Finding.unsupportedMember context method).message)
  | _ => none

theorem filter_diagnostics_plan (use : Use) :
    (use.plan source context completion reference).diagnostics.filter
      (fun diagnostic => Finding.rejectsMember diagnostic.message) =
      (use.report? source context).toList := by
  cases use with
  | assertion call member rule =>
      simp only [plan, Assertion.plan, Plan.diagnostics_append, Plan.diagnostics_change,
        List.append_nil, Assertion.arityPlan]
      split
      · simp [Diagnostic.ofNode, Finding.rejectsMember_missingArguments, report?]
      · rfl
  | unmapped call method =>
      simp [plan, Diagnostic.ofNode, Finding.rejectsMember_unsupportedMember, report?]
  | endValue | failValue | contextCall => rfl
  | contextAccess | property | whole => simp [plan, report?]

theorem exists_of_report? {diagnostic : Diagnostic} {use : Use}
    (h : use.report? source context = some diagnostic) : ∃ call method,
      use = .unmapped call method ∧
      diagnostic = .ofNode source call (Finding.unsupportedMember context method).message := by
  cases use with
  | unmapped call method => exact ⟨call, method, rfl, (Option.some.inj h).symm⟩
  | _ => exact absurd h (by simp [report?])

theorem isSome_report?_iff {tree : Tree} (h : Within (root tree) reference) :
    ((classify source reference).report? source context).isSome = true ↔
      ∃ member call name, Unmapped source tree reference member call name := by
  rw [Option.isSome_iff_exists]
  constructor
  · rintro ⟨diagnostic, hreport⟩
    obtain ⟨call, name, hclassify, _⟩ := exists_of_report? hreport
    obtain ⟨member, hunmapped⟩ := (unmapped_iff h).mpr hclassify
    exact ⟨member, call, name, hunmapped⟩
  · rintro ⟨member, call, name, hunmapped⟩
    rw [(unmapped_iff h).mp ⟨member, hunmapped⟩]
    exact ⟨_, rfl⟩

end Context.Use

end JestMigration
