/-
# `Proofs.Modifier.Normalization` — a chain by what occurs in it

`normalize` reads a chain from left to right and keeps five marks.  What comes
out of it is said here without marks:

  * `OutOfPlace`: a link that may not stand behind those before it.  The first
    such link is named in the answer (`normalize_of_first`); without one, the
    marks say what occurs in the chain (`Reflects`), and the target call is read
    off that (`finish_of_hook`, `finish_of_no_hook`);
  * `isAnchored`: the links whose place can matter.  Where the others stand, and
    how often, does not (`read_eq_mark`).

The place of the anchored ones does matter, and more than it should.  A hook
behind `todo` is out of place, while `todo` behind a hook is dropped without a
word, so that `test.after.todo` registers a hook and `test.todo.after` is
refused.  That is the only way in which the order of a chain without `always`
decides whether it has a target call (`exists_target_iff`).
-/
import JestMigration.Modifier
import Mathlib.Data.List.Basic
import Mathlib.Data.Nat.Find

namespace JestMigration

namespace Modifier

/-! ## Links out of place -/

/-- The link may not stand behind those before it: nothing is known by its name, it is `always`
without a teardown hook before it, or a hook with a hook or `todo` before it. -/
def OutOfPlace (before : List Modifier) : Modifier → Prop
  | .unknown _ => True
  | .always => ∀ lifecycle, .hook lifecycle ∈ before → lifecycle.isTeardown = false
  | .hook _ => .todo ∈ before ∨ ∃ lifecycle, .hook lifecycle ∈ before
  | _ => False

/-- At this position of the chain there is a link out of place. -/
def MisplacedAt (chain : List Modifier) (position : Nat) : Prop :=
  ∃ link, chain[position]? = some link ∧ OutOfPlace (chain.take position) link

namespace Progress

/-- The marks say what occurs in the links that have been read. -/
structure Reflects (seen : Progress) (before : List Modifier) : Prop where
  hook : ∀ lifecycle, seen.hook = some lifecycle ↔ .hook lifecycle ∈ before
  skip : seen.skip = true ↔ .skip ∈ before
  only : seen.only = true ↔ .only ∈ before
  todo : seen.todo = true ↔ .todo ∈ before
  completion : seen.completion = true ↔ .cb ∈ before

variable {seen : Progress} {before : List Modifier} {link : Modifier}

theorem reflects_start : Reflects {} [] := by
  constructor <;> simp

/-- `always` is accepted if the hook that has been read is one of a teardown. -/
theorem Reflects.any_isTeardown (h : seen.Reflects before) :
    seen.hook.any Hook.isTeardown = true ↔ ¬ OutOfPlace before .always := by
  rw [OutOfPlace, Option.any_eq_true]
  constructor
  · rintro ⟨lifecycle, hread, hteardown⟩ hall
    rw [hall lifecycle ((h.hook lifecycle).mp hread)] at hteardown
    exact Bool.false_ne_true hteardown
  · intro hnot
    obtain ⟨lifecycle, hlifecycle⟩ := not_forall.mp hnot
    obtain ⟨hmem, hteardown⟩ := Classical.not_imp.mp hlifecycle
    exact ⟨lifecycle, (h.hook lifecycle).mpr hmem, by simpa using hteardown⟩

/-- A hook is refused if a hook or `todo` has been read. -/
theorem Reflects.isSome_or_todo (h : seen.Reflects before) (lifecycle : Hook) :
    (seen.hook.isSome || seen.todo) = true ↔ OutOfPlace before (.hook lifecycle) := by
  rw [OutOfPlace, Bool.or_eq_true, h.todo, Option.isSome_iff_exists, or_comm]
  simp only [h.hook]

/-- A link out of place ends the reading, and is named. -/
theorem Reflects.step_of_outOfPlace (h : seen.Reflects before) (hlink : OutOfPlace before link) :
    seen.step link = .error (.unknownMethod link.name) := by
  cases link with
  | unknown name => rfl
  | always =>
      have hnot : ¬ seen.hook.any Hook.isTeardown = true := fun hany =>
        h.any_isTeardown.mp hany hlink
      simp only [step, if_neg hnot]
  | hook lifecycle => simp only [step, if_pos ((h.isSome_or_todo lifecycle).mpr hlink)]
  | serial | skip | only | cb | todo => exact absurd hlink id

/-- Any other link leaves its mark. -/
theorem Reflects.step (h : seen.Reflects before) (hlink : ¬ OutOfPlace before link) :
    ∃ next, seen.step link = .ok next ∧ next.Reflects (before ++ [link]) := by
  cases link with
  | unknown name => exact absurd trivial hlink
  | serial =>
      refine ⟨seen, rfl, ?_⟩
      constructor <;> simp [h.hook, h.skip, h.only, h.todo, h.completion]
  | skip =>
      refine ⟨{ seen with skip := true }, rfl, ?_⟩
      constructor <;> simp [h.hook, h.only, h.todo, h.completion]
  | only =>
      refine ⟨{ seen with only := true }, rfl, ?_⟩
      constructor <;> simp [h.hook, h.skip, h.todo, h.completion]
  | cb =>
      refine ⟨{ seen with completion := true }, rfl, ?_⟩
      constructor <;> simp [h.hook, h.skip, h.only, h.todo]
  | todo =>
      refine ⟨{ seen with todo := true }, rfl, ?_⟩
      constructor <;> simp [h.hook, h.skip, h.only, h.completion]
  | always =>
      refine ⟨seen, by simp only [Progress.step, if_pos (h.any_isTeardown.mpr hlink)], ?_⟩
      constructor <;> simp [h.hook, h.skip, h.only, h.todo, h.completion]
  | hook lifecycle =>
      refine ⟨{ seen with hook := some lifecycle }, ?_, ?_⟩
      · simp only [Progress.step, if_neg (mt (h.isSome_or_todo lifecycle).mp hlink)]
      · -- No hook was there before, so this is the only one.
        have hnone : ∀ other, .hook other ∉ before := fun other hmem => hlink (.inr ⟨other, hmem⟩)
        constructor <;> simp [hnone, h.skip, h.only, h.todo, h.completion, eq_comm]

theorem read_append (seen : Progress) (front back : List Modifier) :
    seen.read (front ++ back) = (seen.read front).bind fun next => next.read back := by
  induction front generalizing seen with
  | nil => rfl
  | cons link rest ih =>
      rw [List.cons_append, read, read]
      cases seen.step link with
      | error reason => rfl
      | ok next => exact ih next

/-- Links none of which is out of place are all read. -/
theorem Reflects.read (h : seen.Reflects before) {links : List Modifier}
    (hlinks : ∀ position link, links[position]? = some link →
      ¬ OutOfPlace (before ++ links.take position) link) :
    ∃ next, seen.read links = .ok next ∧ next.Reflects (before ++ links) := by
  induction links generalizing seen before with
  | nil => exact ⟨seen, rfl, by rwa [List.append_nil]⟩
  | cons link rest ih =>
      obtain ⟨middle, hmiddle, hreflects⟩ := h.step (by simpa using hlinks 0 link rfl)
      obtain ⟨next, hnext, hlast⟩ := ih hreflects (by
        intro position other hother
        simpa using hlinks (position + 1) other hother)
      refine ⟨next, ?_, by simpa using hlast⟩
      simp only [Progress.read, hmiddle, hnext]

/-! ## The target call -/

theorem Reflects.finish_of_hook (h : seen.Reflects before) {lifecycle : Hook}
    (hhook : .hook lifecycle ∈ before) :
    seen.finish = if .skip ∈ before then .error .skippedHook
      else if .only ∈ before then .error .focusedHook
      else .ok ⟨.hook lifecycle, decide (.cb ∈ before)⟩ := by
  have hcompletion : seen.completion = decide (.cb ∈ before) := by
    rw [Bool.eq_iff_iff, h.completion, decide_eq_true_eq]
  simp only [finish, (h.hook lifecycle).mpr hhook, h.skip, h.only, hcompletion]

theorem Reflects.finish_of_no_hook (h : seen.Reflects before)
    (hhook : ∀ lifecycle, .hook lifecycle ∉ before) :
    seen.finish = if .todo ∈ before then .ok ⟨.todo, false⟩
      else .ok ⟨.test (if .skip ∈ before then .skip else if .only ∈ before then .only else .none),
        decide (.cb ∈ before)⟩ := by
  have hnone : seen.hook = none := by
    rw [Option.eq_none_iff_forall_ne_some]
    exact fun lifecycle hread => hhook lifecycle ((h.hook lifecycle).mp hread)
  have hcompletion : seen.completion = decide (.cb ∈ before) := by
    rw [Bool.eq_iff_iff, h.completion, decide_eq_true_eq]
  simp only [finish, hnone, h.skip, h.only, h.todo, hcompletion]
  split
  · rfl
  · split
    · rfl
    · split
      · rfl
      · rfl

end Progress

variable {chain other : List Modifier}

/-- Without a link out of place the chain is read to its end. -/
theorem exists_reflects (h : ∀ position, ¬ MisplacedAt chain position) :
    ∃ seen : Progress, seen.Reflects chain ∧ normalize chain = seen.finish := by
  have hlinks : ∀ position link, chain[position]? = some link →
      ¬ OutOfPlace ([] ++ chain.take position) link :=
    fun position link hlink hplace => h position ⟨link, hlink, hplace⟩
  obtain ⟨seen, hread, hreflects⟩ := Progress.reflects_start.read hlinks
  exact ⟨seen, hreflects, by simp only [normalize, hread]⟩

/-- The first link out of place is named. -/
theorem normalize_of_first {position : Nat} {link : Modifier} (hlink : chain[position]? = some link)
    (hplace : OutOfPlace (chain.take position) link)
    (hfirst : ∀ earlier < position, ¬ MisplacedAt chain earlier) :
    normalize chain = .error (.unknownMethod link.name) := by
  obtain ⟨hlt, hget⟩ := List.getElem?_eq_some_iff.mp hlink
  have hfront : ∀ earlier other, (chain.take position)[earlier]? = some other →
      ¬ OutOfPlace ([] ++ (chain.take position).take earlier) other := by
    intro earlier other hother hbad
    obtain ⟨hearlier, _⟩ := List.getElem?_eq_some_iff.mp hother
    rw [List.length_take] at hearlier
    refine hfirst earlier (by omega) ⟨other, ?_, ?_⟩
    · rw [← hother, List.getElem?_take_of_lt (by omega)]
    · rwa [List.nil_append, List.take_take, Nat.min_eq_left (by omega)] at hbad
  obtain ⟨seen, hread, hreflects⟩ := Progress.reflects_start.read hfront
  have hsplit : chain = chain.take position ++ link :: chain.drop (position + 1) := by
    rw [← hget, ← List.drop_eq_getElem_cons hlt, List.take_append_drop]
  have hstop : Progress.read {} chain = .error (.unknownMethod link.name) := by
    rw [hsplit, Progress.read_append, hread]
    simp only [Except.bind, Progress.read, hreflects.step_of_outOfPlace hplace]
  simp only [normalize, hstop]

theorem Progress.finish_ne_unknownMethod (seen : Progress) (name : String) :
    seen.finish ≠ .error (.unknownMethod name) := by
  unfold finish
  split
  · split
    · simp
    · split <;> simp
  · split
    · simp
    · split
      · simp
      · split <;> simp

/-- A link is called unknown exactly if there is one out of place. -/
theorem exists_unknownMethod_iff :
    (∃ name, normalize chain = .error (.unknownMethod name)) ↔
      ∃ position, MisplacedAt chain position := by
  constructor
  · rintro ⟨name, hname⟩
    by_contra hnone
    obtain ⟨seen, _, heq⟩ := exists_reflects (not_exists.mp hnone)
    exact seen.finish_ne_unknownMethod name (heq.symm.trans hname)
  · intro hbad
    classical
    obtain ⟨link, hlink, hplace⟩ := Nat.find_spec hbad
    exact ⟨link.name, normalize_of_first hlink hplace fun _ => Nat.find_min hbad⟩

theorem not_misplacedAt_of_ok {result : Normalized} (h : normalize chain = .ok result)
    (position : Nat) : ¬ MisplacedAt chain position := by
  intro hbad
  obtain ⟨name, hname⟩ := exists_unknownMethod_iff.mpr ⟨position, hbad⟩
  exact absurd (hname.symm.trans h) (by simp)

/-- The name of a link is the one it was read from. -/
theorem name_ofName (text : String) : (ofName text).name = text := by
  unfold ofName
  split <;> rfl

/-! ## Links whose place does not matter -/

/-- The links whose place in the chain can matter. -/
def isAnchored : Modifier → Bool
  | .always | .todo | .hook _ | .unknown _ => true
  | .serial | .skip | .only | .cb => false

namespace Progress

/-- Leaves the marks of the links whose place does not matter. -/
def mark (seen : Progress) (links : List Modifier) : Progress :=
  { seen with
    skip := seen.skip || decide (.skip ∈ links)
    only := seen.only || decide (.only ∈ links)
    completion := seen.completion || decide (.cb ∈ links) }

theorem mark_nil (seen : Progress) : seen.mark [] = seen := by
  simp [mark]

theorem mark_mark (seen : Progress) (links more : List Modifier) :
    (seen.mark links).mark more = seen.mark (links ++ more) := by
  simp [mark, Bool.or_assoc]

theorem mark_congr (seen : Progress) {links more : List Modifier}
    (h : ∀ link ∈ [Modifier.skip, .only, .cb], link ∈ links ↔ link ∈ more) :
    seen.mark links = seen.mark more := by
  simp only [List.forall_mem_cons] at h
  simp only [mark, h]

/-- A link that is not anchored leaves its mark and no more. -/
theorem step_of_not_isAnchored (seen : Progress) {link : Modifier} (h : link.isAnchored = false) :
    seen.step link = .ok (seen.mark [link]) := by
  cases link with
  | serial | skip | only | cb => simp [step, mark]
  | always | todo | hook | unknown => exact absurd h (by simp [isAnchored])

/-- An anchored link does not see the marks of the others. -/
theorem step_mark (seen : Progress) (links : List Modifier) {link : Modifier}
    (h : link.isAnchored = true) :
    (seen.mark links).step link = (seen.step link).map fun next => next.mark links := by
  cases link with
  | serial | skip | only | cb => exact absurd h (by simp [isAnchored])
  | unknown | todo => rfl
  | always | hook =>
      simp only [step]
      rw [apply_ite (Except.map _)]
      rfl

theorem read_mark (links : List Modifier) {anchored : List Modifier}
    (h : ∀ link ∈ anchored, link.isAnchored = true) : ∀ seen : Progress,
      (seen.mark links).read anchored = (seen.read anchored).map fun next => next.mark links := by
  induction anchored with
  | nil =>
      intro seen
      rfl
  | cons link rest ih =>
      intro seen
      rw [read, read, step_mark seen links (h link List.mem_cons_self)]
      cases seen.step link with
      | error reason => rfl
      | ok next => exact ih (fun other hother => h other (List.mem_cons_of_mem _ hother)) next

/-- A chain is read like its anchored links, and the marks of the others are left at the end. -/
theorem read_eq_mark (chain : List Modifier) : ∀ seen : Progress,
    seen.read chain = (seen.read (chain.filter isAnchored)).map fun next => next.mark chain := by
  induction chain with
  | nil =>
      intro seen
      simp only [List.filter_nil, read, Except.map, mark_nil]
  | cons link rest ih =>
      intro seen
      cases hlink : link.isAnchored with
      | false =>
          have hrest : ∀ other ∈ rest.filter isAnchored, other.isAnchored = true :=
            fun other hother => (List.mem_filter.mp hother).2
          rw [List.filter_cons_of_neg (by simp [hlink]), read, step_of_not_isAnchored seen hlink]
          simp only [ih, read_mark [link] hrest]
          cases seen.read (rest.filter isAnchored) with
          | error reason => rfl
          | ok next => simp only [Except.map, mark_mark, List.singleton_append]
      | true =>
          have hmark : ∀ next : Progress, next.mark (link :: rest) = next.mark rest := by
            intro next
            apply mark_congr
            cases link with
            | serial | skip | only | cb => exact absurd hlink (by simp [isAnchored])
            | always | todo | hook | unknown => simp
          rw [List.filter_cons_of_pos (by simpa using hlink), read, read]
          cases seen.step link with
          | error reason => rfl
          | ok next => simp only [ih, hmark]

end Progress

/-- What comes out depends on the anchored links and their order, and on which others occur. -/
theorem normalize_congr (hanchored : chain.filter isAnchored = other.filter isAnchored)
    (hloose : ∀ link ∈ [Modifier.skip, .only, .cb], link ∈ chain ↔ link ∈ other) :
    normalize chain = normalize other := by
  have hread : Progress.read {} chain = Progress.read {} other := by
    rw [Progress.read_eq_mark chain, Progress.read_eq_mark other, hanchored]
    simp only [Progress.mark_congr _ hloose]
  simp only [normalize, hread]

/-- A chain is refused for an unknown link exactly if one of its links is out of place, and the
first of them is named; names are those that were written.  Without one, a chain with a hook
registers it, unless `skip`, or else `only`, occurs; a chain without a hook registers a `todo` if
that occurs, and else a test that is skipped rather than focused; and `cb` counts for all but a
`todo`.  Only the anchored links have an order that counts: `serial` may be put in or taken out
anywhere, and `skip`, `only` and `cb` may stand anywhere. -/
theorem normalize_chain (chain : List Modifier) :
    ((∃ name, normalize chain = .error (.unknownMethod name)) ↔
      ∃ position, MisplacedAt chain position) ∧
    (∀ position link, chain[position]? = some link → OutOfPlace (chain.take position) link →
      (∀ earlier < position, ¬ MisplacedAt chain earlier) →
      normalize chain = .error (.unknownMethod link.name)) ∧
    (∀ text, (ofName text).name = text) ∧
    ((∀ position, ¬ MisplacedAt chain position) →
      (∀ lifecycle, .hook lifecycle ∈ chain →
        normalize chain = if .skip ∈ chain then .error .skippedHook
          else if .only ∈ chain then .error .focusedHook
          else .ok ⟨.hook lifecycle, decide (.cb ∈ chain)⟩) ∧
      ((∀ lifecycle, .hook lifecycle ∉ chain) →
        normalize chain = if .todo ∈ chain then .ok ⟨.todo, false⟩
          else .ok ⟨.test (if .skip ∈ chain then .skip else if .only ∈ chain then .only else .none),
            decide (.cb ∈ chain)⟩)) ∧
    ∀ other, chain.filter isAnchored = other.filter isAnchored →
      (∀ link ∈ [Modifier.skip, .only, .cb], link ∈ chain ↔ link ∈ other) →
      normalize chain = normalize other := by
  refine ⟨exists_unknownMethod_iff, fun _ _ => normalize_of_first, name_ofName, ?_,
    fun _ => normalize_congr⟩
  intro hnone
  obtain ⟨seen, hreflects, heq⟩ := exists_reflects hnone
  constructor
  · intro lifecycle hhook
    rw [heq, hreflects.finish_of_hook hhook]
  · intro hhook
    rw [heq, hreflects.finish_of_no_hook hhook]

/-! ## Any order -/

/-- Is the link a hook? -/
def isHook : Modifier → Bool
  | .hook _ => true
  | _ => false

theorem isHook_iff {link : Modifier} :
    link.isHook = true ↔ ∃ lifecycle, link = .hook lifecycle := by
  cases link <;> simp [isHook]

/-- What a chain without `always` needs in any order: links that are known, one hook at most, and
with a hook neither `skip` nor `only`. -/
structure Acceptable (chain : List Modifier) : Prop where
  known : ∀ name, .unknown name ∉ chain
  single : chain.Pairwise fun a b => ¬ (a.isHook = true ∧ b.isHook = true)
  plain : ∀ lifecycle, .hook lifecycle ∈ chain → .skip ∉ chain ∧ .only ∉ chain

/-- No hook stands behind `todo`. -/
def HookFirst (chain : List Modifier) : Prop :=
  chain.Pairwise fun earlier later => ¬ (earlier = .todo ∧ later.isHook = true)

theorem acceptable_iff_of_perm (h : chain.Perm other) : Acceptable chain ↔ Acceptable other := by
  have hsymm : ∀ {a b : Modifier}, ¬ (a.isHook = true ∧ b.isHook = true) →
      ¬ (b.isHook = true ∧ a.isHook = true) := fun hab hba => hab hba.symm
  constructor
  · rintro ⟨hknown, hsingle, hplain⟩
    simp only [h.mem_iff] at hknown hplain
    exact ⟨hknown, (h.pairwise_iff hsymm).mp hsingle, hplain⟩
  · rintro ⟨hknown, hsingle, hplain⟩
    simp only [← h.mem_iff] at hknown hplain
    exact ⟨hknown, (h.pairwise_iff hsymm).mpr hsingle, hplain⟩

/-- A hook is out of place behind a hook or `todo`. -/
theorem outOfPlace_iff_of_isHook {before : List Modifier} {link : Modifier}
    (h : link.isHook = true) : OutOfPlace before link ↔
      ∃ earlier ∈ before, earlier.isHook = true ∨ earlier = .todo := by
  obtain ⟨lifecycle, rfl⟩ := isHook_iff.mp h
  constructor
  · rintro (htodo | ⟨other, hhook⟩)
    · exact ⟨.todo, htodo, .inr rfl⟩
    · exact ⟨.hook other, hhook, .inl rfl⟩
  · rintro ⟨earlier, hmem, hhook | rfl⟩
    · obtain ⟨other, rfl⟩ := isHook_iff.mp hhook
      exact .inr ⟨other, hmem⟩
    · exact .inl hmem

/-- Without `always`, nothing is out of place if all links are known and every hook is the first of
the hooks and `todo`s. -/
theorem forall_not_misplacedAt_iff (halways : .always ∉ chain) :
    (∀ position, ¬ MisplacedAt chain position) ↔ (∀ name, .unknown name ∉ chain) ∧
      chain.Pairwise fun earlier later =>
        ¬ ((earlier.isHook = true ∨ earlier = .todo) ∧ later.isHook = true) := by
  constructor
  · intro hnone
    constructor
    · intro name hmem
      obtain ⟨position, hlink⟩ := List.mem_iff_getElem?.mp hmem
      exact hnone position ⟨_, hlink, trivial⟩
    · rw [List.pairwise_iff_getElem]
      rintro i j hi hj hij ⟨hearlier, hlater⟩
      refine hnone j ⟨chain[j], List.getElem?_eq_getElem hj, ?_⟩
      rw [outOfPlace_iff_of_isHook hlater]
      exact ⟨chain[i], List.mem_take_iff_getElem.mpr ⟨i, by omega, rfl⟩, hearlier⟩
  · rintro ⟨hknown, hpairs⟩ position ⟨link, hlink, hplace⟩
    have hmem := List.mem_of_getElem? hlink
    cases hhook : link.isHook with
    | true =>
        obtain ⟨earlier, hbefore, hearlier⟩ := (outOfPlace_iff_of_isHook hhook).mp hplace
        obtain ⟨i, hi, rfl⟩ := List.mem_take_iff_getElem.mp hbefore
        obtain ⟨hlt, rfl⟩ := List.getElem?_eq_some_iff.mp hlink
        exact List.pairwise_iff_getElem.mp hpairs i position (by omega) hlt (by omega)
          ⟨hearlier, hhook⟩
    | false =>
        cases link with
        | unknown name => exact hknown name hmem
        | always => exact halways hmem
        | hook lifecycle => exact absurd hhook (by simp [isHook])
        | serial | skip | only | cb | todo => exact hplace

/-- A chain without `always` has a target call exactly if it is acceptable in any order and no hook
stands behind `todo`. -/
theorem exists_target_iff (halways : .always ∉ chain) :
    (∃ result, normalize chain = .ok result) ↔ Acceptable chain ∧ HookFirst chain := by
  have hplaces := forall_not_misplacedAt_iff halways
  simp only [or_and_right, not_or, List.pairwise_and_iff] at hplaces
  constructor
  · rintro ⟨result, hresult⟩
    have hnone := not_misplacedAt_of_ok hresult
    obtain ⟨hknown, hsingle, hfirst⟩ := hplaces.mp hnone
    refine ⟨⟨hknown, hsingle, ?_⟩, hfirst⟩
    intro lifecycle hhook
    obtain ⟨seen, hreflects, heq⟩ := exists_reflects hnone
    rw [heq, hreflects.finish_of_hook hhook] at hresult
    split at hresult
    · exact absurd hresult (by simp)
    · split at hresult
      · exact absurd hresult (by simp)
      · exact ⟨‹_›, ‹_›⟩
  · rintro ⟨⟨hknown, hsingle, hplain⟩, hfirst⟩
    obtain ⟨seen, hreflects, heq⟩ := exists_reflects (hplaces.mpr ⟨hknown, hsingle, hfirst⟩)
    by_cases hhook : ∃ lifecycle, .hook lifecycle ∈ chain
    · obtain ⟨lifecycle, hhook⟩ := hhook
      obtain ⟨hskip, honly⟩ := hplain lifecycle hhook
      exact ⟨_, by rw [heq, hreflects.finish_of_hook hhook, if_neg hskip, if_neg honly]⟩
    · rw [heq, hreflects.finish_of_no_hook (not_exists.mp hhook)]
      split
      · exact ⟨_, rfl⟩
      · exact ⟨_, rfl⟩

/-- Two orders of a chain, none with a link out of place, come to the same. -/
theorem normalize_eq_of_perm (h : chain.Perm other)
    (hchain : ∀ position, ¬ MisplacedAt chain position)
    (hother : ∀ position, ¬ MisplacedAt other position) : normalize chain = normalize other := by
  obtain ⟨seen, hreflects, heq⟩ := exists_reflects hchain
  obtain ⟨seen', hreflects', heq'⟩ := exists_reflects hother
  rw [heq, heq']
  by_cases hhook : ∃ lifecycle, .hook lifecycle ∈ chain
  · obtain ⟨lifecycle, hhook⟩ := hhook
    rw [hreflects.finish_of_hook hhook, hreflects'.finish_of_hook (h.mem_iff.mp hhook)]
    simp only [h.mem_iff]
  · rw [hreflects.finish_of_no_hook (not_exists.mp hhook),
      hreflects'.finish_of_no_hook fun lifecycle hmem => hhook ⟨lifecycle, h.mem_iff.mpr hmem⟩]
    simp only [h.mem_iff]

/-- If a chain without `always` has a target call in two orders, it is the same one, with or without
a completion callback.  Whether there is one does not depend on the order either, unless there are
both a hook and `todo`.  With both, and nothing else in the way, the orders in which the hook is in
front are accepted and the others are not. -/
theorem normalize_in_any_order (chain other : List Modifier) (hperm : chain.Perm other)
    (halways : .always ∉ chain) :
    (∀ result result', normalize chain = .ok result → normalize other = .ok result' →
      result.target = result'.target ∧ result.completion = result'.completion) ∧
    ((∀ lifecycle, .hook lifecycle ∈ chain → .todo ∉ chain) →
      ((∃ result, normalize chain = .ok result) ↔ ∃ result, normalize other = .ok result)) ∧
    (((∃ result, normalize chain = .ok result) ↔ ∃ result, normalize other = .ok result) ↔
      (Acceptable chain → (HookFirst chain ↔ HookFirst other))) := by
  have hacceptable := acceptable_iff_of_perm hperm
  have hdecided : ((∃ result, normalize chain = .ok result) ↔
      ∃ result, normalize other = .ok result) ↔
        (Acceptable chain → (HookFirst chain ↔ HookFirst other)) := by
    rw [exists_target_iff halways, exists_target_iff (mt hperm.mem_iff.mpr halways), ← hacceptable,
      and_congr_right_iff]
  refine ⟨?_, ?_, hdecided⟩
  · intro result result' hresult hresult'
    have hsame := normalize_eq_of_perm hperm (not_misplacedAt_of_ok hresult)
      (not_misplacedAt_of_ok hresult')
    rw [hresult, hresult', Except.ok.injEq] at hsame
    rw [hsame]
    exact ⟨rfl, rfl⟩
  · intro happart
    have hfirst : ∀ links : List Modifier, (∀ link, link ∈ links → link ∈ chain) →
        HookFirst links := by
      intro links hlinks
      apply List.pairwise_of_forall_mem_list
      rintro earlier hearlier later hlater ⟨rfl, hhook⟩
      obtain ⟨lifecycle, rfl⟩ := isHook_iff.mp hhook
      exact happart lifecycle (hlinks _ hlater) (hlinks _ hearlier)
    exact hdecided.mpr fun _ => ⟨fun _ => hfirst other fun _ => hperm.mem_iff.mpr,
      fun _ => hfirst chain fun _ hlink => hlink⟩

/-- A hook that takes a completion callback, in both orders. -/
theorem normalize_in_any_order_teardown :
    [Modifier.hook .afterEach, .serial, .cb].Perm [.cb, .serial, .hook .afterEach] ∧
    normalize [.hook .afterEach, .serial, .cb] = .ok ⟨.hook .afterEach, true⟩ ∧
    ∃ result, normalize [.cb, .serial, .hook .afterEach] = .ok result ∧
      result.target = .hook .afterEach ∧ result.completion = true := by
  have hperm : [Modifier.hook .afterEach, .serial, .cb].Perm [.cb, .serial, .hook .afterEach] := by
    decide
  have hok : normalize [.hook .afterEach, .serial, .cb] = .ok ⟨.hook .afterEach, true⟩ := by decide
  obtain ⟨hsame, hiff, _⟩ := normalize_in_any_order _ _ hperm (by decide)
  obtain ⟨result, hresult⟩ := (hiff (by simp)).mp ⟨_, hok⟩
  obtain ⟨htarget, hcompletion⟩ := hsame _ result hok hresult
  exact ⟨hperm, hok, result, hresult, htarget.symm, hcompletion.symm⟩

/-- With the hook in front `todo` is dropped, and with `todo` in front the hook is refused. -/
theorem todo_behind_hook :
    [Modifier.hook .afterAll, .todo].Perm [.todo, .hook .afterAll] ∧
    .always ∉ [Modifier.hook .afterAll, .todo] ∧
    normalize [.hook .afterAll, .todo] = .ok ⟨.hook .afterAll, false⟩ ∧
    normalize [.todo, .hook .afterAll] = .error (.unknownMethod "after") := by
  decide

end Modifier

end JestMigration
