/-
# `Proofs.Migration.Frame` — what a migration leaves alone

The places where a migration may write are three kinds of regions:

  * a top-level statement that imports the framework and nothing else, with the
    blanks that are deleted with it;
  * the callee of a registration whose chain is understood;
  * the callback of a registration whose chain is known.

`edits_in_regions`: every recorded edit is in a region, so the output is the
source with some regions patched, and every byte outside is copied in order.
Where the nodes of a tree end between characters, so do the edits and their
slots, and rendering them has a text (`region_of_record`).
For edits in a callback this says that nothing reaches out of it: no edit is
made at a node above the body, and a deleted line ends at the braces.
-/
import JestMigration.Proofs.Callback.Coverage
import JestMigration.Proofs.ChangeSet.Copying
import JestMigration.Proofs.Migration.Sites

namespace JestMigration

open Node

/-! ## Regions -/

/-- The call registers a test or a hook with the framework that the file uses. -/
def Registers (source : Source) (tree : Tree) (options : Options) (call : Node)
    (registration : Registration) : Prop :=
  Within (root tree) call ∧ ∃ framework,
    Framework.detect? (Import.scan (ScopeTable.build source tree) source (root tree)) options =
      some framework ∧
    Registration.ofCall? (ScopeTable.build source tree) source framework call = some registration

/-- The spans that a migration may write to. -/
inductive Region (source : Source) (tree : Tree) (options : Options) : Span → Prop
  | imports {statement : Node} : statement ∈ (root tree).children →
      statement.Imports source Framework.package →
      Region source tree options (source.statementLines statement.span)
  | callee {call : Node} {registration : Registration} {normalized : Normalized} :
      Registers source tree options call registration →
      Modifier.normalize registration.modifiers = .ok normalized →
      Region source tree options registration.callee.span
  | callback {call callback : Node} {registration : Registration} {span : Span} :
      Registers source tree options call registration →
      (∀ name, Modifier.normalize registration.modifiers ≠ .error (.unknownMethod name)) →
      registration.callback? = some callback → callback.span.contains span = true →
      Region source tree options span

/-- The byte at an offset is in no region. -/
def Untouched (source : Source) (tree : Tree) (options : Options) (offset : Nat) : Prop :=
  ∀ span, Region source tree options span → offset < span.start ∨ span.stop ≤ offset

namespace Migration

variable {source : Source} {tree : Tree} {options : Options} {framework : Framework}
  {change : Change}

/-- The edits that a migration records. -/
def record (source : Source) (tree : Tree) (options : Options) : Except Conflict ChangeSet :=
  match plan? source tree options with
  | some plan => ChangeSet.applyAll { source } plan.changes
  | none => .ok { source }

theorem region_of_origin (hnest : tree.WellNested source)
    (hdetect : Framework.detect?
      (Import.scan (ScopeTable.build source tree) source (root tree)) options = some framework)
    (h : Origin source tree framework change) :
    Region source tree options (change.span source) ∧
      (tree.Readable source → (source.slice? (change.span source)).isSome) := by
  cases h with
  | @imports statement hstatement =>
      obtain ⟨hmem, himports⟩ := imports_of_mem_statements hdetect hstatement
      refine ⟨.imports hmem himports, ?_⟩
      intro hread
      have hslice := hread statement (mem_nodes_of_within (.of_mem_children hmem))
      obtain ⟨text, htext⟩ := Option.isSome_iff_exists.mp hslice
      have hle := Source.le_size_of_isBoundary (Source.bounds_of_slice? htext).2.1
      exact (Source.grown_statementLines hle).slice?_isSome hslice
  | callee hcall hof hnormalize =>
      have hcallee := (Registration.ofCall?_eq_some hof).2.1
      refine ⟨.callee ⟨hcall, framework, hdetect, hof⟩ hnormalize, ?_⟩
      intro hread
      exact hread _ (mem_nodes_of_within (hcall.trans (within_of_child? hcallee)))
  | callback hcall hof hknown hcallback hchange =>
      obtain ⟨hliteral, list, hlist, _, hmem⟩ := Registration.callback_of_ofCall? hof hcallback
      have hwithin := (hcall.trans (within_of_child? hlist)).trans (within_of_mem_namedChildren hmem)
      have hinside := Callback.inside_of_plan hnest hwithin hliteral hchange
      exact ⟨.callback ⟨hcall, framework, hdetect, hof⟩ hknown hcallback hinside.contained,
        hinside.readable⟩

/-- Slots are arguments of calls in a callback, and no other change has any. -/
theorem isSome_slice?_of_origin {edit : Edit} {slot : Span} (hread : tree.Readable source)
    (h : Origin source tree framework change) (hask : change.edit? source = some edit)
    (hslot : .source slot ∈ edit.parts) : (source.slice? slot).isSome := by
  cases h with
  | imports =>
      rw [Edit.eq_of_delete? hask] at hslot
      exact absurd hslot (by simp [Edit.delete])
  | callee =>
      rw [Change.eq_of_edit?_replace hask] at hslot
      exact absurd hslot (by simp [Edit.replace])
  | callback hcall hof _ hcallback hchange =>
      obtain ⟨_, list, hlist, _, hmem⟩ := Registration.callback_of_ofCall? hof hcallback
      have hwithin := (hcall.trans (within_of_child? hlist)).trans (within_of_mem_namedChildren hmem)
      exact (Callback.argumentSlot_of_plan hwithin hchange hask hslot).isSome_slice? hread

/-- Every recorded edit is in a region, and can be read if the nodes can. -/
theorem region_of_record (hnest : tree.WellNested source) {changes : ChangeSet}
    (h : record source tree options = .ok changes) :
    changes.source = source ∧ ∀ edit ∈ changes.edits, Region source tree options edit.span ∧
      (tree.Readable source → edit.Readable source) := by
  unfold record at h
  split at h
  · rename_i plan hplan
    have hrecorded := ChangeSet.recorded_applyAll h
    refine ⟨hrecorded.source, ?_⟩
    intro edit hedit
    rcases hrecorded.origin edit hedit with hold | ⟨change, hchange, hask⟩
    · exact absurd hold List.not_mem_nil
    · obtain ⟨framework, hdetect, horigin⟩ := origin_of_plan? hplan hchange
      obtain ⟨hregion, hslice⟩ := region_of_origin hnest hdetect horigin
      rw [← Change.span_of_edit? hask] at hregion hslice
      exact ⟨hregion, fun hread =>
        ⟨hslice hread, fun slot => isSome_slice?_of_origin hread horigin hask⟩⟩
  · cases h
    exact ⟨rfl, fun edit hedit => absurd hedit List.not_mem_nil⟩

/-- What a migration gives is what the recorded edits render to. -/
theorem record_of_migrate {migrated : Migrated} (h : migrate source tree options = .ok migrated) :
    ∃ changes, record source tree options = .ok changes ∧ migrated.output = changes.render := by
  cases hplan : plan? source tree options with
  | none =>
      simp only [migrate, hplan] at h
      cases h
      exact ⟨{ source }, by simp only [record, hplan], (ChangeSet.render_empty source).symm⟩
  | some plan =>
      simp only [migrate, hplan, carryOut] at h
      split at h
      · rename_i changes hchanges
        cases h
        exact ⟨changes, by simp only [record, hplan, hchanges], rfl⟩
      · exact absurd h (by simp)

end Migration

/-- A node that is no part of an import or of a registration with a known chain, and in which there
is none, is left alone: such as a call with an unknown modifier, a call of a name that is bound to
something else, or a declaration with a second declarator. -/
theorem untouched_of_node {source : Source} {tree : Tree} {options : Options} {node : Node}
    (hnest : tree.WellNested source) (htrim : tree.Trimmed source)
    (hnode : Within (root tree) node) (htrimmed : source.isTrimmed node.span = true)
    (himports : ∀ statement ∈ (root tree).children, statement.Imports source Framework.package →
      ¬ Within statement node ∧ ¬ Within node statement)
    (hcalls : ∀ call registration, Registers source tree options call registration →
      Within call node ∨ Within node call →
      ∃ name, Modifier.normalize registration.modifiers = .error (.unknownMethod name))
    {offset : Nat} (hstart : node.span.start ≤ offset) (hstop : offset < node.span.stop) :
    Untouched source tree options offset := by
  intro span hregion
  -- A node that neither holds `node` nor is in it shares no byte with it.
  have hapart : ∀ {other : Node} {inner : Span}, Within (root tree) other →
      ¬ Within other node → ¬ Within node other → other.span.contains inner = true →
      offset < inner.start ∨ inner.stop ≤ offset := by
    intro other inner hother hover hunder hinner
    obtain ⟨hleft, hright⟩ := Span.contains_iff.mp hinner
    rcases hnest.compare hother hnode with h | h | h | h
    · exact absurd h hover
    · exact absurd h hunder
    · exact .inr (by omega)
    · exact .inl (by omega)
  -- Nor does a call that registers something, or a node below it that is not in `node`.
  have hregister : ∀ {call below : Node} {registration : Registration},
      Registers source tree options call registration →
      (∀ name, Modifier.normalize registration.modifiers ≠ .error (.unknownMethod name)) →
      Within call below → ¬ Within below node ∧ ¬ Within node below := by
    intro call below registration hregisters hknown hbelow
    have hnot : ¬ (Within call node ∨ Within node call) := by
      intro h
      obtain ⟨name, hname⟩ := hcalls call registration hregisters h
      exact hknown name hname
    refine ⟨fun h => hnot (.inl (hbelow.trans h)), fun h => ?_⟩
    exact hnot (hregisters.1.total hnode hbelow h)
  cases hregion with
  | @imports statement hmem himport =>
      obtain ⟨hover, hunder⟩ := himports statement hmem himport
      have hwithin := Within.of_mem_children hmem
      have hsolid := htrim.solid statement (mem_nodes_of_within hwithin) himport.isSolid
      have hgrown := Source.grown_statementLines (Source.start_le_of_isTrimmed hsolid)
      rcases hnest.compare hwithin hnode with h | h | h | h
      · exact absurd h hover
      · exact absurd h hunder
      · have hle := hgrown.stop_le_of_isTrimmed htrimmed h
        exact .inr (by omega)
      · have hle := hgrown.le_start_of_isTrimmed htrimmed h
        exact .inl (by omega)
  | callee hregisters hnormalize =>
      obtain ⟨_, _, hof⟩ := hregisters.2
      have hbelow := within_of_child? (Registration.ofCall?_eq_some hof).2.1
      obtain ⟨hover, hunder⟩ := hregister hregisters (by simp [hnormalize]) hbelow
      exact hapart (hregisters.1.trans hbelow) hover hunder (Span.contains_self _)
  | callback hregisters hknown hcallback hinner =>
      obtain ⟨_, _, hof⟩ := hregisters.2
      obtain ⟨_, list, hlist, _, hmem⟩ := Registration.callback_of_ofCall? hof hcallback
      have hbelow := (within_of_child? hlist).trans (within_of_mem_namedChildren hmem)
      obtain ⟨hover, hunder⟩ := hregister hregisters hknown hbelow
      exact hapart (hregisters.1.trans hbelow) hover hunder hinner

/-- Every edit of a migration is in a region, and rendering the edits copies no part of a character.
The output is the source with some regions patched from left to right; bytes outside the regions are
copied, and in their order. -/
theorem edits_in_regions (source : Source) (tree : Tree) (options : Options) (migrated : Migrated)
    (hnest : tree.WellNested source) (hmigrate : migrate source tree options = .ok migrated) :
    ∃ changes, Migration.record source tree options = .ok changes ∧
      migrated.output = changes.render ∧
      (∀ edit ∈ changes.edits, Region source tree options edit.span) ∧
      (tree.Readable source →
        changes.render? = some migrated.output ∧
        (∃ patches, source.Ordered 0 patches ∧
          (∀ patch ∈ patches, Region source tree options patch.1) ∧
          (Source.mk migrated.output).bytes = source.splice 0 patches) ∧
        ∃ position : Nat → Nat, ∀ i < source.size, Untouched source tree options i →
          (Source.mk migrated.output).byte? (position i) = source.byte? i ∧
          ∀ j < source.size, Untouched source tree options j → i < j → position i < position j) ∧
      (tree.Trimmed source → ∀ node, Within (root tree) node →
        source.isTrimmed node.span = true →
        (∀ statement ∈ (root tree).children, statement.Imports source Framework.package →
          ¬ Within statement node ∧ ¬ Within node statement) →
        (∀ call registration, Registers source tree options call registration →
          Within call node ∨ Within node call →
          ∃ name, Modifier.normalize registration.modifiers = .error (.unknownMethod name)) →
        ∀ offset, node.span.start ≤ offset → offset < node.span.stop →
          Untouched source tree options offset) := by
  obtain ⟨changes, hrecord, houtput⟩ := Migration.record_of_migrate hmigrate
  obtain ⟨hsource, hregions⟩ := Migration.region_of_record hnest hrecord
  refine ⟨changes, hrecord, houtput, fun edit hedit => (hregions edit hedit).1, ?_,
    fun htrim node hnode htrimmed himports hcalls offset hstart hstop =>
      untouched_of_node hnest htrim hnode htrimmed himports hcalls hstart hstop⟩
  intro hread
  have hreadable : ∀ edit ∈ changes.edits, edit.Readable changes.source := by
    rw [hsource]
    exact fun edit hedit => (hregions edit hedit).2 hread
  obtain ⟨patches, hordered, hspans, hbytes⟩ :=
    changes.exists_splice fun edit hedit => (hreadable edit hedit).1
  rw [hsource] at hordered hbytes
  rw [← houtput] at hbytes
  have hpatches : ∀ patch ∈ patches, Region source tree options patch.1 := by
    intro patch hpatch
    obtain ⟨edit, hedit, hspan⟩ := hspans patch hpatch
    rw [hspan]
    exact (hregions edit hedit).1
  have hrender : changes.render? = some migrated.output := by
    rw [houtput]
    exact ChangeSet.render?_of_readable hreadable
  refine ⟨hrender, ⟨patches, hordered, hpatches, hbytes⟩, ?_⟩
  obtain ⟨position, hposition⟩ := Source.exists_place_splice hordered
  refine ⟨position, ?_⟩
  intro i hi hout
  obtain ⟨hbyte, horder⟩ := hposition i (Nat.zero_le _) hi fun patch hpatch =>
    hout patch.1 (hpatches patch hpatch)
  refine ⟨?_, fun j hj hout' hij => horder j hij hj fun patch hpatch =>
    hout' patch.1 (hpatches patch hpatch)⟩
  rw [Source.byte?_eq_getElem?, hbytes, hbyte]

theorem edits_in_regions_sample :
    ∃ migrated, (Sample.tree.WellNested Sample.source ∧ Sample.tree.Readable Sample.source ∧
        migrate Sample.source Sample.tree {} = .ok migrated) ∧
      ∃ changes, Migration.record Sample.source Sample.tree {} = .ok changes ∧
        migrated.output = changes.render ∧
        (∀ edit ∈ changes.edits, Region Sample.source Sample.tree {} edit.span) ∧
        changes.render? = some migrated.output ∧
        ∃ patches, Sample.source.Ordered 0 patches ∧
          (∀ patch ∈ patches, Region Sample.source Sample.tree {} patch.1) ∧
          (Source.mk migrated.output).bytes = Sample.source.splice 0 patches := by
  have hnest : Sample.tree.WellNested Sample.source := by decide +kernel
  have hread : Sample.tree.Readable Sample.source := by decide +kernel
  obtain ⟨migrated, hmigrate⟩ := Migration.exists_migrate {} hnest (by decide +kernel)
  obtain ⟨changes, hrecord, houtput, hedits, hpatched, _⟩ :=
    edits_in_regions Sample.source Sample.tree {} migrated hnest hmigrate
  obtain ⟨hrender, hpatches, _⟩ := hpatched hread
  exact ⟨migrated, ⟨hnest, hread, hmigrate⟩, changes, hrecord, houtput, hedits, hrender, hpatches⟩

end JestMigration
