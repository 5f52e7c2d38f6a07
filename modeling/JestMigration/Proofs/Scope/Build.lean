/-
# `Proofs.Scope.Build` — the finished scope table

The visit enters the nodes of a tree in preorder.  A node is entered with the
scope of the nearest node above it; what it contributes is then in the table
(`Complete`), and stays there, since whatever is entered later only adds to the
table.  So the finished table is sound (`sound_build`), and what any node that
is visited contributes is in it (`complete_build`).
-/
import JestMigration.Proofs.Scope.Sound

namespace JestMigration

namespace ScopeTable

open Node

/-! ## Scopes around a node -/

/-- The scope of the nearest function, or of the program, among some nodes. -/
def nearestFunction? (table : ScopeTable) (ids : List Nat) : Option ScopeId :=
  (ids.filterMap fun id => table.opened.lookup id).find? fun scope => !table.isBlock scope

theorem isBlock_eq (table : ScopeTable) (scope : ScopeId) :
    table.isBlock scope = (table.kindOf? scope).any fun kind => kind == .block := by
  rw [isBlock, kindOf?]
  cases table.scopes[scope]? <;> rfl

theorem nearestFunction?_cons (table : ScopeTable) (id : Nat) (rest : List Nat) :
    table.nearestFunction? (id :: rest) =
      match table.opened.lookup id with
      | some scope => if table.isBlock scope then table.nearestFunction? rest else some scope
      | none => table.nearestFunction? rest := by
  rw [nearestFunction?, List.filterMap_cons]
  cases table.opened.lookup id with
  | none => rfl
  | some scope =>
      simp only [List.find?_cons]
      cases table.isBlock scope <;> rfl

variable {source : Source} {tree : Tree} {table before after : ScopeTable} {node : Node}
  {scope : ScopeId} {bound : Nat}

theorem Sound.exists_kindOf? (h : Sound source tree bound table) {id : Nat}
    (hopen : table.opened.lookup id = some scope) : ∃ kind, table.kindOf? scope = some kind := by
  have hlt := (h.entered hopen).2
  exact ⟨_, by rw [kindOf?, Array.getElem?_eq_getElem hlt, Option.map_some]⟩

theorem nearestFunction?_congr {limit : Nat} (h : Sound source tree limit before)
    (hext : Extends bound before after) {ids : List Nat} (hids : ∀ id ∈ ids, id < bound) :
    after.nearestFunction? ids = before.nearestFunction? ids := by
  induction ids with
  | nil => rfl
  | cons id rest ih =>
      have hrest := ih fun other hother => hids other (List.mem_cons_of_mem _ hother)
      rw [nearestFunction?_cons, nearestFunction?_cons, hext.opened id (hids id List.mem_cons_self),
        hrest]
      cases hopen : before.opened.lookup id with
      | none => rfl
      | some scope =>
          obtain ⟨kind, hkind⟩ := h.exists_kindOf? hopen
          simp only [isBlock_eq, hkind, hext.kinds hkind]

/-! ## What a node contributes is there -/

/-- The table has the scope that a node opens, and none for a node that opens none. -/
structure Opens (table : ScopeTable) (node : Node) : Prop where
  opened : ∀ kind, node.scopeKind? = some kind →
    ∃ scope, table.openedAt? node = some scope ∧ table.kindOf? scope = some kind
  closed : node.scopeKind? = none → table.openedAt? node = none

/-- What a node contributes is in the table. -/
structure Complete (source : Source) (table : ScopeTable) (node : Node) : Prop where
  opens : Opens table node
  own : ∀ name ∈ node.ownNames source, name.text source ≠ "" →
    table.HasName node (name.text source)
  block : ∀ name ∈ node.blockNames, name.text source ≠ "" →
    ∃ scope, table.nearest? (node.above.map Prod.fst) = some scope ∧
      (table.boundIn? scope (name.text source)).isSome
  hoisted : ∀ name ∈ node.hoistedNames source, name.text source ≠ "" →
    ∃ scope, table.nearestFunction? (node.above.map Prod.fst) = some scope ∧
      (table.boundIn? scope (name.text source)).isSome

theorem Opens.extend (h : Opens before node) (hext : Extends bound before after)
    (hlt : node.id < bound) : Opens after node where
  opened := by
    intro kind hkind
    obtain ⟨scope, hopen, hfound⟩ := h.opened kind hkind
    exact ⟨scope, (hext.opened _ hlt).trans hopen, hext.kinds hfound⟩
  closed := fun hnone => (hext.opened _ hlt).trans (h.closed hnone)

/-- What is in the table stays there. -/
theorem Complete.extend {limit : Nat} (h : Complete source before node)
    (hsound : Sound source tree limit before) (hnode : Within (root tree) node)
    (hext : Extends bound before after) (hlt : node.id < bound) : Complete source after node where
  opens := h.opens.extend hext hlt
  own := by
    intro name hname hne
    obtain ⟨scope, hopen, hbound⟩ := h.own name hname hne
    exact ⟨scope, (hext.opened _ hlt).trans hopen, hext.names hbound⟩
  block := by
    intro name hname hne
    obtain ⟨scope, hnear, hbound⟩ := h.block name hname hne
    refine ⟨scope, (nearest?_congr ?_).trans hnear, hext.names hbound⟩
    intro id hid
    exact hext.opened id (Nat.lt_trans (lt_of_mem_above hnode hid) hlt)
  hoisted := by
    intro name hname hne
    obtain ⟨scope, hnear, hbound⟩ := h.hoisted name hname hne
    refine ⟨scope, (nearestFunction?_congr hsound hext ?_).trans hnear, hext.names hbound⟩
    exact fun id hid => Nat.lt_trans (lt_of_mem_above hnode hid) hlt

/-! ## Entering a node -/

/-- What one step of the visit does: from a table that is sound up to a node, it makes one that is
sound behind the node, says which scope the node's children are in, and loses nothing. -/
structure Entered (source : Source) (tree : Tree) (node : Node) (before after : ScopeTable)
    (inner : ScopeId) : Prop where
  sound : Sound source tree (node.id + 1) after
  inner : after.nearest? node.lineage = some inner
  grows : Extends node.id before after

/-- Opening the scope of a node, if it opens one. -/
theorem entered_opening (h : Sound source tree node.id table) (hnode : Within (root tree) node)
    (hscope : table.nearest? (node.above.map Prod.fst) = some scope) :
    Entered source tree node table (table.opening node scope).1 (table.opening node scope).2 ∧
      Opens (table.opening node scope).1 node := by
  cases hkind : node.scopeKind? with
  | none =>
      have hnone := h.lookup_of_le (Nat.le_refl node.id)
      simp only [opening, hkind]
      refine ⟨⟨h.mono (Nat.le_succ _), ?_, .refl _ table⟩, ?_, fun _ => hnone⟩
      · rw [nearest?, lineage, List.findSome?_cons, hnone]
        exact hscope
      · intro kind hsome
        rw [hkind] at hsome
        exact absurd hsome (by simp)
  | some kind =>
      have hlookup : (table.openScope node kind (some scope)).opened.lookup node.id =
          some table.scopes.size := by
        rw [lookup_openScope, if_pos rfl]
      simp only [opening, hkind, openInside]
      refine ⟨⟨h.openScope hnode (Nat.le_refl _) hscope, ?_,
        table.extends_openScope kind (some scope) (Nat.le_refl _)⟩, ?_, ?_⟩
      · rw [nearest?, lineage, List.findSome?_cons, hlookup]
      · intro other hsome
        rw [hkind] at hsome
        cases hsome
        exact ⟨_, hlookup, by simp [kindOf?, openScope]⟩
      · intro hnone
        rw [hkind] at hnone
        exact absurd hnone (by simp)

/-- Names may be declared in any scope around the node, and are bound there. -/
theorem Entered.declareAll {inner outer : ScopeId}
    (h : Entered source tree node before after inner) (hnode : Within (root tree) node)
    (houter : outer ∈ after.path inner) {names : List Node}
    (hnames : ∀ name ∈ names, Within node name) :
    Entered source tree node before (after.declareAll source outer names) inner ∧
      Extends (node.id + 1) after (after.declareAll source outer names) ∧
      ∀ name ∈ names, name.text source ≠ "" →
        ((after.declareAll source outer names).boundIn? outer (name.text source)).isSome := by
  obtain ⟨id, hid, hopen⟩ := h.sound.exists_of_mem_path hnode h.inner houter
  obtain ⟨hext, hbound⟩ : Extends (node.id + 1) after (after.declareAll source outer names) ∧ _ :=
    extends_declareAll (node.id + 1) (h.sound.entered hopen).2
  refine ⟨⟨h.sound.declareAll hnode ⟨id, hid, hopen⟩ hnames, ?_,
    h.grows.trans (hext.mono (Nat.le_succ _))⟩, hext, hbound⟩
  rw [← h.inner]
  exact nearest?_congr fun _ _ => by rw [opened_declareAll]

/-- The function around a node that opens none itself is the nearest one above. -/
theorem nearestFunction?_above (h : Sound source tree bound table) (hnode : Within (root tree) node)
    {inner : ScopeId} (hinner : table.nearest? node.lineage = some inner) (hopens : Opens table node)
    (hkind : node.scopeKind? = none ∨ node.scopeKind? = some .block) :
    table.nearestFunction? (node.above.map Prod.fst) = some (table.functionScope inner) := by
  -- The node's own scope, if there is one, is that of a block and is passed over.
  have hskip : table.nearestFunction? node.lineage =
      table.nearestFunction? (node.above.map Prod.fst) := by
    rw [lineage, nearestFunction?_cons]
    rcases hkind with hkind | hkind
    · rw [show table.opened.lookup node.id = none from hopens.closed hkind]
    · obtain ⟨scope, hopen, hfound⟩ := hopens.opened _ hkind
      rw [show table.opened.lookup node.id = some scope from hopen]
      simp [isBlock_eq, hfound]
  have hpath : table.nearestFunction? node.lineage =
      (table.path inner).find? fun scope => !table.isBlock scope := by
    rw [h.path_eq hnode hinner]
    rfl
  -- The search ends with the program.
  have hprogram : programScope ∈ table.path inner := by
    rw [h.path_eq hnode hinner]
    exact List.mem_filterMap.mpr
      ⟨0, (mem_lineage_iff hnode).mpr ⟨root tree, .self, hnode, rfl⟩, h.rooted⟩
  have hsome : ((table.path inner).find? fun scope => !table.isBlock scope).isSome := by
    refine List.find?_isSome.mpr ⟨programScope, hprogram, ?_⟩
    simp [isBlock_eq, h.program]
  obtain ⟨found, hfound⟩ := Option.isSome_iff_exists.mp hsome
  rw [← hskip, hpath, functionScope, hfound]
  rfl

/-- Entering a node: the table stays sound, and what the node contributes is in it. -/
theorem entered_contribute (h : Sound source tree node.id table) (hnode : Within (root tree) node)
    {parent : Node} (hparent : node.parent? = some parent)
    (hscope : table.nearest? (node.above.map Prod.fst) = some scope) :
    Entered source tree node table (table.contribute source node scope).1
        (table.contribute source node scope).2 ∧
      Complete source (table.contribute source node scope).1 node := by
  obtain ⟨id, hid, hopen⟩ := exists_of_nearest? hscope
  obtain ⟨haround, hblock⟩ : Extends (node.id + 1) table
      (table.declareAll source scope node.blockNames) ∧ _ :=
    extends_declareAll (node.id + 1) (h.entered hopen).2
  have hsound := h.declareAll hnode ⟨id, List.mem_cons_of_mem _ hid, hopen⟩
    fun _ hname => within_of_mem_blockNames hname
  obtain ⟨hopened, hopens⟩ := entered_opening hsound hnode
    ((nearest?_congr fun _ _ => by rw [opened_declareAll]).trans hscope)
  obtain ⟨hown, hownGrows, hownNames⟩ := hopened.declareAll hnode (self_mem_path _ _)
    fun _ hname => within_of_mem_ownNames hname
  obtain ⟨hlast, hlastGrows, hlastNames⟩ := hown.declareAll hnode (functionScope_mem_path _ _)
    fun _ hname => within_of_mem_hoistedNames hname
  have hgrows := hownGrows.trans hlastGrows
  refine ⟨⟨hlast.sound, hlast.inner, (haround.mono (Nat.le_succ _)).trans hlast.grows⟩, {
    opens := hopens.extend hgrows (Nat.lt_succ_self _)
    own := ?own, block := ?block, hoisted := ?hoisted }⟩
  case own =>
    intro name hname hne
    obtain ⟨kind, hkind⟩ := scopeKind?_of_mem_ownNames hname
    obtain ⟨own, hown, _⟩ := hopens.opened kind hkind
    have hinner := hopened.inner
    rw [nearest?, lineage, List.findSome?_cons,
      show List.lookup node.id _ = some own from hown] at hinner
    refine ⟨own, (hgrows.opened _ (Nat.lt_succ_self _)).trans hown, hlastGrows.names ?_⟩
    rw [Option.some.inj hinner]
    exact hownNames name hname hne
  case block =>
    intro name hname hne
    refine ⟨scope, ?_, hgrows.names (hopened.grows.names (hblock name hname hne))⟩
    rw [← hscope]
    apply nearest?_congr
    intro id hid
    exact ((haround.mono (Nat.le_succ _)).trans hlast.grows).opened id (lt_of_mem_above hnode hid)
  case hoisted =>
    intro name hname hne
    have habove : ∀ id ∈ node.above.map Prod.fst, id < node.id + 1 :=
      fun id hid => Nat.lt_succ_of_lt (lt_of_mem_above hnode hid)
    have hopens' := hopens.extend hownGrows (Nat.lt_succ_self _)
    have hfunction := nearestFunction?_above hown.sound hnode hown.inner hopens'
      (scopeKind?_of_mem_hoistedNames hname hparent)
    exact ⟨_, (nearestFunction?_congr hown.sound hlastGrows habove).trans hfunction,
      hlastNames name hname hne⟩

/-! ## Visiting the tree -/

theorem visit_eq (source : Source) (table : ScopeTable) (node : Node) (scope : ScopeId) :
    visit source table node scope = (visitedChildren node).foldl
      (fun current child => visit source current child (table.enter source node scope).2)
      (table.enter source node scope).1 := by
  rw [visit]
  exact List.foldl_attach
    (f := fun current child => visit source current child (table.enter source node scope).2)

theorem visitedChildren_pairwise (node : Node) :
    (visitedChildren node).Pairwise fun a b => a.id + a.tree.size ≤ b.id := by
  unfold visitedChildren
  split
  · exact List.Pairwise.nil
  · exact node.children_pairwise

/-- `Reached top node`: a visit of `top` comes to `node`. -/
inductive Reached : Node → Node → Prop
  | self {node : Node} : Reached node node
  | step {top child node : Node} : child ∈ visitedChildren top → Reached child node →
      Reached top node

theorem Reached.within {top node : Node} (h : Reached top node) : Within top node := by
  induction h with
  | self => exact .self
  | step hmem _ ih =>
      exact (Within.of_mem_children (mem_children_of_mem_visitedChildren hmem)).trans ih

/-- Visiting a node enters it and the nodes below, and loses nothing. -/
structure Visited (source : Source) (tree : Tree) (node : Node) (before after : ScopeTable) :
    Prop where
  sound : Sound source tree (node.id + node.tree.size) after
  grows : Extends node.id before after
  complete : ∀ below, Reached node below → Complete source after below

/-- Visiting the children of a node one after the other, when each visit does as it should. -/
theorem visited_foldl {inner : ScopeId} {children : List Node} {limit : Nat}
    (hnode : Within (root tree) node)
    (hstep : ∀ child ∈ children, ∀ table : ScopeTable, Sound source tree child.id table →
      table.nearest? node.lineage = some inner →
      Visited source tree child table (visit source table child inner))
    (hmem : ∀ child ∈ children, child ∈ node.children)
    (hordered : children.Pairwise fun a b => a.id + a.tree.size ≤ b.id)
    (hlimit : ∀ child ∈ children, bound ≤ child.id ∧ child.id + child.tree.size ≤ limit)
    (hbound : bound ≤ limit) (hlt : node.id < bound) (h : Sound source tree bound table)
    (hinner : table.nearest? node.lineage = some inner) :
    Sound source tree limit
        (children.foldl (fun current child => visit source current child inner) table) ∧
      Extends bound table
        (children.foldl (fun current child => visit source current child inner) table) ∧
      ∀ child ∈ children, ∀ below, Reached child below →
        Complete source
          (children.foldl (fun current child => visit source current child inner) table) below := by
  induction children generalizing table bound with
  | nil => exact ⟨h.mono hbound, .refl _ _, fun _ hchild => absurd hchild List.not_mem_nil⟩
  | cons child rest ih =>
      obtain ⟨hfirst, hordered⟩ := List.pairwise_cons.mp hordered
      obtain ⟨hle, hsize⟩ := hlimit child List.mem_cons_self
      have hvisit := hstep child List.mem_cons_self table (h.mono hle) hinner
      have hpos := child.tree.size_pos
      obtain ⟨hsound, hgrows, hcomplete⟩ := ih
        (fun other hother => hstep other (List.mem_cons_of_mem _ hother))
        (fun other hother => hmem other (List.mem_cons_of_mem _ hother)) hordered
        (fun other hother =>
          ⟨hfirst other hother, (hlimit other (List.mem_cons_of_mem _ hother)).2⟩)
        hsize (by omega) hvisit.sound
        ((nearest?_congr fun id hid => hvisit.grows.opened id (by
          have hid := le_of_mem_lineage hnode hid
          omega)).trans hinner)
      rw [List.foldl_cons]
      refine ⟨hsound, (hvisit.grows.mono hle).trans (hgrows.mono (by omega)), ?_⟩
      intro other hother below hbelow
      rcases List.mem_cons.mp hother with rfl | hother
      · -- What the first visit has put in stays while the others go on.
        have hchild := hmem other List.mem_cons_self
        have hid := hbelow.within.id_bounds
        have hnodepos := below.tree.size_pos
        exact (hvisit.complete below hbelow).extend hvisit.sound
          ((hnode.child hchild).trans hbelow.within) hgrows (by omega)
      · exact hcomplete other hother below hbelow

theorem visited_visit (node : Node) (hnode : Within (root tree) node) {parent : Node}
    (hparent : node.parent? = some parent) (table : ScopeTable) (scope : ScopeId)
    (h : Sound source tree node.id table)
    (hscope : table.nearest? (node.above.map Prod.fst) = some scope) :
    Visited source tree node table (visit source table node scope) := by
  obtain ⟨hentered, hcomplete⟩ := entered_contribute h hnode hparent hscope
  rw [← enter_eq hparent] at hentered hcomplete
  have hchildren : ∀ child ∈ visitedChildren node, child ∈ node.children :=
    fun _ hmem => mem_children_of_mem_visitedChildren hmem
  have hstep : ∀ child ∈ visitedChildren node, ∀ current : ScopeTable,
      Sound source tree child.id current →
      current.nearest? node.lineage = some (table.enter source node scope).2 →
      Visited source tree child current
        (visit source current child (table.enter source node scope).2) := by
    intro child hmem current hsound hinner
    have hlt := size_lt_of_mem_children (hchildren child hmem)
    exact visited_visit child (hnode.child (hchildren child hmem))
      (parent?_of_mem_children (hchildren child hmem)) current _ hsound
      (by rw [above_eq_lineage (hchildren child hmem), hinner])
  have hpos := node.tree.size_pos
  obtain ⟨hsound, hgrows, hbelow⟩ := visited_foldl hnode hstep hchildren
    (visitedChildren_pairwise node)
    (fun child hmem =>
      have hb := id_bounds_of_mem_children (hchildren child hmem)
      ⟨hb.1, hb.2⟩)
    (show node.id + 1 ≤ node.id + node.tree.size by omega) (Nat.lt_succ_self _) hentered.sound
    hentered.inner
  rw [visit_eq]
  refine ⟨hsound, hentered.grows.trans (hgrows.mono (Nat.le_succ _)), ?_⟩
  intro below hreached
  cases hreached with
  | self => exact hcomplete.extend hentered.sound hnode hgrows (Nat.lt_succ_self _)
  | step hmem hreached => exact hbelow _ hmem below hreached
termination_by node.tree.size

theorem visited_child {child : Node} {inner : ScopeId} (hnode : Within (root tree) node)
    (hmem : child ∈ node.children) (h : Sound source tree child.id table)
    (hinner : table.nearest? node.lineage = some inner) :
    Visited source tree child table (visit source table child inner) :=
  visited_visit child (hnode.child hmem) (parent?_of_mem_children hmem) table inner h
    (by rw [above_eq_lineage hmem, hinner])

/-- Nothing but the scope of the program is there before the visit. -/
theorem sound_empty (source : Source) (tree : Tree) :
    Sound source tree 1 (ScopeTable.openScope {} (root tree) .program none) := by
  have hlookup : ∀ {id scope : Nat},
      (ScopeTable.openScope {} (root tree) .program none).opened.lookup id = some scope →
      id = 0 ∧ scope = 0 := by
    intro id scope h
    rw [lookup_openScope] at h
    split at h
    · rename_i hid
      exact ⟨hid, (Option.some.inj h).symm⟩
    · exact absurd h (by simp)
  refine ⟨rfl, rfl, ?_, ?_, ?_, ?_, ?_⟩
  · intro id scope h
    obtain ⟨rfl, rfl⟩ := hlookup h
    exact ⟨by omega, by simp [ScopeTable.openScope]⟩
  · intro a b scope ha hb
    rw [(hlookup ha).1, (hlookup hb).1]
  · intro node scope hnode h
    obtain ⟨hid, rfl⟩ := hlookup h
    rw [hnode.eq_of_id .self hid]
    exact ⟨rfl, fun _ hparent => absurd hparent (by simp [nearest?, root])⟩
  · intro scope name binding
    rw [boundIn?_openScope]
    simp [boundIn?, ScopeTable.openScope]
  · intro node binding _ h
    exact absurd h (by simp [declaredAt?, ScopeTable.openScope])

/-- The visit of the children of the root makes a table that is sound, and complete for all nodes
that the visit reaches. -/
theorem visited_build (source : Source) (tree : Tree) :
    Sound source tree tree.size (build source tree) ∧
      ∀ child ∈ (root tree).children, ∀ node, Reached child node →
        Complete source (build source tree) node := by
  obtain ⟨hsound, _, hcomplete⟩ := visited_foldl .self
    (fun _ hmem _ => visited_child .self hmem) (fun _ hmem => hmem) (root tree).children_pairwise
    (fun child hmem =>
      have hb := id_bounds_of_mem_children hmem
      ⟨hb.1, by simpa [root] using hb.2⟩)
    tree.size_pos (Nat.zero_lt_one) (sound_empty source tree) rfl
  exact ⟨hsound, hcomplete⟩

/-- The finished table is sound. -/
theorem sound_build (source : Source) (tree : Tree) :
    Sound source tree tree.size (build source tree) :=
  (visited_build source tree).1

/-! ## What is declared is bound -/

theorem Reached.child {top child : Node} (h : Reached top node) (hmem : child ∈ visitedChildren node) :
    Reached top child := by
  induction h with
  | self => exact .step hmem .self
  | step hfirst _ ih => exact .step hfirst (ih hmem)

theorem isVisited_of_mem_children {parent child : Node} (hmem : child ∈ parent.children) :
    child.isVisited = (parent.kind != .importStatement && parent.isVisited) := by
  rw [isVisited, ancestors_of_mem_children hmem]
  rfl

theorem reached_of_isVisited {top : Node} (h : Within top node) (hvisited : node.isVisited = true) :
    Reached top node := by
  induction h with
  | self => exact .self
  | @child parent child _ hmem ih =>
      rw [isVisited_of_mem_children hmem, Bool.and_eq_true, bne_iff_ne] at hvisited
      refine (ih hvisited.2).child ?_
      rw [visitedChildren, if_neg hvisited.1]
      exact hmem

/-- What a visited node below the root contributes is in the finished table. -/
theorem complete_build (hnode : Within (root tree) node) (hroot : node ≠ root tree)
    (hvisited : node.isVisited = true) : Complete source (build source tree) node := by
  rcases hnode.head with heq | ⟨child, hmem, hbelow⟩
  · exact absurd heq hroot
  · exact (visited_build source tree).2 child hmem node (reached_of_isVisited hbelow hvisited)

theorem opens_build (source : Source) (hnode : Within (root tree) node)
    (hvisited : node.isVisited = true) : Opens (build source tree) node := by
  rcases hnode.last with rfl | ⟨parent, hmem, _⟩
  · have hsound := sound_build source tree
    refine ⟨?_, fun hnone => absurd hnone (by simp [scopeKind?, parent?, root])⟩
    intro kind hkind
    have hprogram : kind = .program := by simpa [scopeKind?, parent?, root] using hkind.symm
    exact ⟨programScope, hsound.rooted, hprogram ▸ hsound.program⟩
  · exact (complete_build hnode (Within.self.ne_root hmem) hvisited).opens

/-- The nodes above a visited node are visited. -/
theorem opens_ancestors (source : Source) (hnode : Within (root tree) node)
    (hvisited : node.isVisited = true) :
    ∀ above ∈ node.ancestors, Opens (build source tree) above := by
  induction hnode with
  | self => exact fun _ habove => absurd habove List.not_mem_nil
  | @child parent child hparent hmem ih =>
      rw [isVisited_of_mem_children hmem, Bool.and_eq_true] at hvisited
      intro above habove
      rw [ancestors_of_mem_children hmem] at habove
      rcases List.mem_cons.mp habove with rfl | habove
      · exact opens_build source hparent hvisited.2
      · exact ih hvisited.2 above habove

/-- The nearest scope is that of the nearest node that opens one. -/
theorem nearest?_eq {nodes : List Node} (h : ∀ node ∈ nodes, Opens table node) :
    table.nearest? (nodes.map Node.id) =
      (nodes.find? fun node => node.scopeKind?.isSome).bind table.openedAt? := by
  induction nodes with
  | nil => rfl
  | cons node rest ih =>
      have hrest := ih fun other hother => h other (List.mem_cons_of_mem _ hother)
      have hopens := h node List.mem_cons_self
      rw [List.map_cons, nearest?, List.findSome?_cons, List.find?_cons]
      cases hkind : node.scopeKind? with
      | none =>
          rw [show table.opened.lookup node.id = none from hopens.closed hkind]
          exact hrest
      | some kind =>
          obtain ⟨scope, hopen, _⟩ := hopens.opened kind hkind
          rw [show table.opened.lookup node.id = some scope from hopen]
          exact hopen.symm

/-- The nearest function scope is that of the nearest node that opens one. -/
theorem nearestFunction?_eq {nodes : List Node} (h : ∀ node ∈ nodes, Opens table node) :
    table.nearestFunction? (nodes.map Node.id) =
      (nodes.find? fun node => node.scopeKind?.any fun kind => kind != .block).bind
        table.openedAt? := by
  induction nodes with
  | nil => rfl
  | cons node rest ih =>
      have hrest := ih fun other hother => h other (List.mem_cons_of_mem _ hother)
      have hopens := h node List.mem_cons_self
      rw [List.map_cons, nearestFunction?_cons, List.find?_cons, hrest]
      cases hkind : node.scopeKind? with
      | none =>
          rw [show table.opened.lookup node.id = none from hopens.closed hkind]
          rfl
      | some kind =>
          obtain ⟨scope, hopen, hfound⟩ := hopens.opened kind hkind
          rw [show table.opened.lookup node.id = some scope from hopen]
          cases kind with
          | block => simp [isBlock_eq, hfound]
          | program | function =>
              have hfind : (some node).bind table.openedAt? = some scope := hopen
              simp only [isBlock_eq, hfound, Option.any_some]
              exact hfind.symm

/-- A name that a node binds is in its scope in the finished table. -/
theorem hasName_of_binds {holder name : Node} (hholder : Within (root tree) holder)
    (hroot : holder ≠ root tree) (h : Binds source tree holder name) (hne : name.text source ≠ "") :
    (build source tree).HasName holder (name.text source) := by
  cases h with
  | own hvisited hname => exact (complete_build hholder hroot hvisited).own name hname hne
  | @block declaration _ hwithin hvisited hname hnearest =>
      have hbelow : declaration ≠ root tree := by
        rintro rfl
        simp [ancestors, root, enclosing] at hnearest
      obtain ⟨scope, hscope, hbound⟩ :=
        (complete_build hwithin hbelow hvisited).block name hname hne
      rw [← map_id_enclosing] at hscope
      have heq := nearest?_eq (opens_ancestors source hwithin hvisited)
      rw [hnearest] at heq
      exact ⟨scope, heq.symm.trans hscope, hbound⟩
  | @hoisted declaration _ hwithin hvisited hname hnearest =>
      have hbelow : declaration ≠ root tree := by
        rintro rfl
        simp [ancestors, root, enclosing] at hnearest
      obtain ⟨scope, hscope, hbound⟩ :=
        (complete_build hwithin hbelow hvisited).hoisted name hname hne
      rw [← map_id_enclosing] at hscope
      have heq := nearestFunction?_eq (opens_ancestors source hwithin hvisited)
      rw [hnearest] at heq
      exact ⟨scope, heq.symm.trans hscope, hbound⟩

end ScopeTable

end JestMigration
