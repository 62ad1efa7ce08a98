import Mathlib
import SimpleCdn.Deployment.Coverage

/-!
# A site that is being deleted leaves the nodes

From the moment a deletion begins no node state that is saved should contain the site, and when
its row is removed no stored state should.  The publisher keeps to this only as long as it does not
meet the site's publication: that snapshot is not marked as deleting, so every call that renders
a node in service it lists renders the site again (`NotHandedOver` excludes it).  And a removal
rewrites only the nodes in service that the draft or the publication lists (`ReachesAll`).
-/

namespace SimpleCdn.Deployment

open Transition

/-- A call renders no node in service from the publication of a site whose deletion has begun. -/
def NotHandedOver (s : State) (a : Action) : Prop :=
  ∀ call ∈ s.rendering a, ∀ p ∈ s.store.sitePublications.rows, p.site.enabled = true →
    p.site.id ∈ s.begun → p.material ∈ call.materials →
    ∀ node ∈ s.store.nodes.rows, call.serving node = true → node.id ∉ p.site.nodes

/-- A step that stages a removal rewrites every node whose state serves the site. -/
def ReachesAll (s : State) (a : Action) : Prop :=
  ∀ id ∈ s.begun, s.store.staged id = false → (step s a).store.staged id = true →
    ∀ call ∈ s.rendering a, ∀ row ∈ s.store.nodeStates.rows, row.state.serves id →
      ∃ node ∈ s.store.nodes.rows, node.id = row.nodeID ∧ call.serving node = true

def Withdraws (s : State) (a : Action) : Prop :=
  NotHandedOver s a ∧ ReachesAll s a

instance (s : State) (a : Action) : Decidable (NotHandedOver s a) := by
  unfold NotHandedOver
  infer_instance

instance (s : State) (a : Action) : Decidable (ReachesAll s a) := by
  unfold ReachesAll
  infer_instance

instance (s : State) (a : Action) : Decidable (Withdraws s a) :=
  inferInstanceAs (Decidable (_ ∧ _))

/-- No node state the step saves serves a site whose deletion has begun. -/
def SavesWithout (s : State) (a : Action) : Prop :=
  ∀ row ∈ s.newRows (step s a).store, ∀ id ∈ s.begun, ¬ row.state.serves id

/-- No stored state serves a site whose deletion has begun and whose row is gone. -/
def RemovedUnserved (s : State) : Prop :=
  ∀ id ∈ s.begun, s.store.sites.find? id = none →
    ∀ row ∈ s.store.nodeStates.rows, ¬ row.state.serves id

structure Leaving (s : State) : Prop where
  marked : ∀ id ∈ s.begun, ∀ row, s.store.sites.find? id = some row → row.deleting = true
  issued : s.begun ⊆ s.store.issuedIDs
  unserved : ∀ id ∈ s.begun, s.store.sites.find? id = none ∨ s.store.staged id = true →
    ∀ row ∈ s.store.nodeStates.rows, ¬ row.state.serves id

theorem leaving_initial : Leaving initial := by
  constructor
  case marked => nofun
  case issued => exact List.nil_subset _
  case unserved => nofun

theorem Leaving.removedUnserved {s : State} (h : Leaving s) : RemovedUnserved s :=
  fun id hid hnone => h.unserved id hid (.inl hnone)

section Steps

variable {s s' : State} {a : Action} {siteID taskID : String} {row : Site} {now : Time}
  {call : RenderCall} {targets : List PublishTaskNode}

/-- A site whose deletion has begun is not among the live ones. -/
theorem Leaving.ne_of_live (h : Leaving s) (hrow : s.store.sites.find? siteID = some row)
    (hlive : row.deleting = false) {id : String} (hid : id ∈ s.begun) : id ≠ siteID := by
  rintro rfl
  have hmarked := h.marked id hid row hrow
  rw [hlive] at hmarked
  cases hmarked

/-- A state row after a call: it is the old one, or a rendered one. -/
theorem Saves.mem_states {r : Option RenderCall} (h : Saves r s s' call targets)
    {staterow : NodeStateRow} (hmem : staterow ∈ s'.store.nodeStates.rows) :
    (∃ node, s.store.nodes.find? staterow.nodeID = some node ∧ call.serving node = true ∧
      Content call.materials staterow.nodeID staterow.state) ∨
    ((∀ node, s.store.nodes.find? staterow.nodeID = some node → call.serving node = false) ∧
      staterow ∈ s.store.nodeStates.rows) := by
  have hfind : s'.store.nodeStates.find? staterow.nodeID = some staterow := Table.find?_of_mem hmem
  rcases h.find?_state staterow.nodeID with
    ⟨node, found, hnode, hserving, hrow, hrebuilt, -⟩ | ⟨hno, hsame⟩
  · have hid : node.id = staterow.nodeID := Table.key_of_find? hnode
    have hcontent := hrebuilt.content
    rw [hid] at hcontent
    obtain rfl := Option.some.inj (hfind.symm.trans hrow)
    exact .inl ⟨node, hnode, hserving, hcontent⟩
  · rw [hsame] at hfind
    exact .inr ⟨hno, Table.mem_of_find? hfind⟩

/-- What a call renders serves no site whose deletion has begun, when its materials of such a
site are publications. -/
theorem content_unserved {n : String} {node : Node} {d : DesiredState}
    (hcontent : Content call.materials n d) (hrendering : s.rendering a = some call)
    (hguard : NotHandedOver s a) (hnode : s.store.nodes.find? n = some node)
    (hserving : call.serving node = true) {id : String} (hid : id ∈ s.begun)
    (hmaterial : ∀ material ∈ call.materials, material.site.id = id →
      ∃ p ∈ s.store.sitePublications, p.material = material) : ¬ d.serves id := by
  intro hserves
  obtain ⟨material, hmem, hlisted, hmid, henabled⟩ := hcontent.serves id hserves
  obtain ⟨p, hp, rfl⟩ := hmaterial material hmem hmid
  have hkey : node.id = n := Table.key_of_find? hnode
  have hpid : p.site.id = id := hmid
  refine hguard call hrendering p hp henabled (by rw [hpid]; exact hid) hmem node
    (Table.mem_of_find? hnode) hserving ?_
  rw [hkey]
  exact hlisted

/-- The materials of a publish are those of other sites, and its own draft is live. -/
theorem Publishes.unserved (hpublishes : Publishes (s.rendering a) s s' siteID row now call targets)
    (h : Leaving s) (hguard : NotHandedOver s a) {n : String} {node : Node} {d : DesiredState}
    (hcontent : Content call.materials n d) (hnode : s.store.nodes.find? n = some node)
    (hserving : call.serving node = true) {id : String} (hid : id ∈ s.begun) : ¬ d.serves id := by
  refine content_unserved hcontent hpublishes.rendering hguard hnode hserving hid fun material hmem hmid => ?_
  rcases ((hpublishes.site.material material).mp hmem).2 with ⟨p, hp, -, hmaterial⟩ | ⟨-, rfl⟩
  · rw [hpublishes.base.publications] at hp
    exact ⟨p, hp, hmaterial⟩
  · have hne := h.ne_of_live hpublishes.found hpublishes.live hid
    have hrow : row.id = siteID := Table.key_of_find? hpublishes.found
    exact absurd (hmid.symm.trans hrow) hne

theorem Rebuilds.unserved (hrebuilds : Rebuilds (s.rendering a) s s' call targets)
    (hguard : NotHandedOver s a) {n : String} {node : Node} {d : DesiredState}
    (hcontent : Content call.materials n d) (hnode : s.store.nodes.find? n = some node)
    (hserving : call.serving node = true) {id : String} (hid : id ∈ s.begun) : ¬ d.serves id := by
  refine content_unserved hcontent hrebuilds.rendering hguard hnode hserving hid fun material hmem hmid => ?_
  rw [hrebuilds.materials] at hmem
  obtain ⟨p, hp, -, hmaterial⟩ := mem_publicationMaterials.mp hmem
  exact ⟨p, hp, hmaterial⟩

/-- The materials of a removal are those of the other sites. -/
theorem Stages.unserved (hstages : Stages (s.rendering a) s s' siteID taskID row now call targets)
    (hguard : NotHandedOver s a) {n : String} {node : Node} {d : DesiredState}
    (hcontent : Content call.materials n d) (hnode : s.store.nodes.find? n = some node)
    (hserving : call.serving node = true) {id : String} (hid : id ∈ s.begun) : ¬ d.serves id := by
  refine content_unserved hcontent hstages.rendering hguard hnode hserving hid fun material hmem hmid => ?_
  rcases ((hstages.site.material material).mp hmem).2 with ⟨p, hp, -, hmaterial⟩ | ⟨hno, -⟩
  · rw [hstages.base.publications] at hp
    exact ⟨p, hp, hmaterial⟩
  · cases hno

/-! ### The invariant -/

/-- An action that leaves sites, deletions and states alone. -/
theorem Leaving.congr (h : Leaving s) (hsites : ∀ id ∈ s.begun, s'.store.sites.find? id =
      s.store.sites.find? id)
    (hstaged : ∀ id ∈ s.begun, s'.store.staged id = true → s.store.staged id = true)
    (hstates : ∀ row ∈ s'.store.nodeStates.rows, row ∈ s.store.nodeStates.rows)
    (hissued : s.store.issuedIDs ⊆ s'.store.issuedIDs) (hbegun : s'.begun = s.begun) :
    Leaving s' where
  marked := by
    intro id hid row hrow
    rw [hbegun] at hid
    rw [hsites id hid] at hrow
    exact h.marked id hid row hrow
  issued := by
    rw [hbegun]
    exact List.Subset.trans h.issued hissued
  unserved := by
    intro id hid hgone row hmem
    rw [hbegun] at hid
    refine h.unserved id hid ?_ row (hstates row hmem)
    rcases hgone with hgone | hgone
    · rw [hsites id hid] at hgone
      exact .inl hgone
    · exact .inr (hstaged id hid hgone)

/-- A call that renders none of the sites in deletion. -/
theorem Leaving.saves (h : Leaving s) (hsaves : Saves (s.rendering a) s s' call targets)
    (hunserved : ∀ n node d, Content call.materials n d → s.store.nodes.find? n = some node →
      call.serving node = true → ∀ id ∈ s.begun, ¬ d.serves id)
    (hsites : ∀ id ∈ s.begun, s'.store.sites.find? id = s.store.sites.find? id)
    (hdeletions : ∀ k, s'.store.deletionOf k = s.store.deletionOf k) (hbegun : s'.begun = s.begun) :
    Leaving s' where
  marked := by
    intro id hid row hrow
    rw [hbegun] at hid
    rw [hsites id hid] at hrow
    exact h.marked id hid row hrow
  issued := by
    rw [hbegun]
    exact List.Subset.trans h.issued hsaves.issued
  unserved := by
    intro id hid hgone row hmem
    rw [hbegun] at hid
    rw [hsites id hid, Store.staged_congr (hdeletions id)] at hgone
    rcases hsaves.mem_states hmem with ⟨node, hnode, hserving, hcontent⟩ | ⟨-, hold⟩
    · exact hunserved _ node _ hcontent hnode hserving id hid
    · exact h.unserved id hid hgone row hold

theorem Leaving.stage (h : Leaving s)
    (hstages : Stages (s.rendering a) s s' siteID taskID row now call targets)
    (hguard : Withdraws s a) (hs' : s' = step s a) : Leaving s' where
  marked := by
    intro id hid found hfound
    rw [hstages.begun] at hid
    rw [hstages.sites] at hfound
    exact h.marked id hid found hfound
  issued := by
    rw [hstages.begun]
    exact List.Subset.trans h.issued hstages.issued
  unserved := by
    intro id hid hgone staterow hmem
    rw [hstages.begun] at hid
    rcases hstages.mem_states hmem with ⟨node, hnode, hserving, hcontent⟩ | ⟨hno, hold⟩
    · exact hstages.unserved hguard.1 hcontent hnode hserving hid
    · by_cases hsite : id = siteID
      · -- a node that serves the site is rewritten
        intro hserves
        have hbefore : s.store.staged id = false := by
          rw [hsite, Store.staged, hstages.phase]
          rfl
        have hafter : (step s a).store.staged id = true := by
          rw [← hs', hsite, Store.staged, hstages.deletions, if_pos rfl]
          rfl
        obtain ⟨node, hnode, hkey, hserving⟩ :=
          hguard.2 id hid hbefore hafter call hstages.rendering staterow hold hserves
        have hfind := Table.find?_of_mem (T := s.store.nodes) hnode
        rw [key_node, hkey] at hfind
        rw [hno node hfind] at hserving
        cases hserving
      · refine h.unserved id hid ?_ staterow hold
        rw [hstages.sites] at hgone
        rw [Store.staged, hstages.deletions, if_neg hsite] at hgone
        exact hgone

theorem Leaving.begin (h : Leaving s) (hs : Consistent s.store)
    (hbegins : Begins s s' siteID taskID row) : Leaving s' where
  marked := by
    intro id hid row' hrow'
    obtain ⟨now, hsites⟩ := hbegins.sites
    rw [hsites] at hrow'
    split at hrow'
    · rw [← Option.some.inj hrow']
    · next hne =>
      rw [hbegins.begun, List.mem_cons] at hid
      exact h.marked id (hid.resolve_left hne) row' hrow'
  issued := by
    rw [hbegins.begun]
    refine List.cons_subset.mpr ⟨?_, List.Subset.trans h.issued hbegins.issued⟩
    exact hbegins.issued (hs.siteIssued siteID row hbegins.found)
  unserved := by
    intro id hid hgone staterow hmem
    obtain ⟨now, hsites⟩ := hbegins.sites
    rw [hbegins.states] at hmem
    rw [hsites, Store.staged, hbegins.deletions] at hgone
    split at hgone
    · -- the site has a row and waits for its DNS records
      rcases hgone with hgone | hgone
      · cases hgone
      · cases hgone
    · next hne =>
      rw [hbegins.begun, List.mem_cons] at hid
      exact h.unserved id (hid.resolve_left hne) hgone staterow hmem

theorem Leaving.remove (h : Leaving s) (hremoves : Removes s s' siteID taskID)
    (hbegun : s'.begun = s.begun) : Leaving s' where
  marked := by
    intro id hid row' hrow'
    rw [hbegun] at hid
    rw [hremoves.sites] at hrow'
    split at hrow'
    · cases hrow'
    · exact h.marked id hid row' hrow'
  issued := by
    rw [hbegun]
    exact List.Subset.trans h.issued hremoves.issued
  unserved := by
    intro id hid hgone staterow hmem
    rw [hbegun] at hid
    rw [hremoves.states] at hmem
    refine h.unserved id hid ?_ staterow hmem
    rw [hremoves.sites, Store.staged, hremoves.deletions] at hgone
    split at hgone
    · next hid' =>
      right
      rw [Store.staged, hid', hremoves.phase]
      rfl
    · exact hgone

/-- What a step saves, and what it keeps. -/
theorem leaving_step (hs : WellFormed s) (h : Leaving s) (hguard : Withdraws s a) :
    SavesWithout s a ∧ Leaving (step s a) := by
  have hquiet : (step s a).store.nodeStates = s.store.nodeStates → SavesWithout s a := by
    intro hsame row hmem
    rw [newRows_eq_nil hsame] at hmem
    cases hmem
  -- only rows of nodes the call serves are new
  have hnew : ∀ {call targets}, Saves (s.rendering a) s (step s a) call targets →
      (∀ n node d, Content call.materials n d → s.store.nodes.find? n = some node →
        call.serving node = true → ∀ id ∈ s.begun, ¬ d.serves id) → SavesWithout s a := by
    intro call targets hsaves hunserved row hmem id hid
    simp only [State.newRows, List.mem_filter, decide_eq_true_eq] at hmem
    rcases hsaves.mem_states hmem.1 with ⟨node, hnode, hserving, hcontent⟩ | ⟨-, hold⟩
    · exact hunserved _ node _ hcontent hnode hserving id hid
    · exact absurd hold hmem.2
  cases step_effect hs a with
  | tables tables history =>
    refine ⟨hquiet tables.states, h.congr ?_ ?_ ?_ tables.issued history.begun⟩
    · intro id _
      rw [tables.sites]
    · intro id _ hstaged
      rw [Store.staged_congr (tables.deletions id)] at hstaged
      exact hstaged
    · rw [tables.states]
      exact fun _ hmem => hmem
  | site id row' written history =>
    refine ⟨hquiet written.states, h.congr ?_ ?_ ?_ written.issued history.begun⟩
    · intro k hk
      rw [written.sites, if_neg]
      rintro rfl
      rcases written.origin with ⟨-, hfresh, -⟩ | ⟨old, hold, hlive⟩
      · exact hfresh (h.issued hk)
      · exact h.ne_of_live hold hlive hk rfl
    · intro k _ hstaged
      rw [Store.staged_congr (written.deletions k)] at hstaged
      exact hstaged
    · rw [written.states]
      exact fun _ hmem => hmem
  | publish siteID row now call targets publishes =>
    have hunserved : ∀ n node d, Content call.materials n d → s.store.nodes.find? n = some node →
        call.serving node = true → ∀ id ∈ s.begun, ¬ d.serves id :=
      fun n node d hcontent hnode hserving id hid =>
        publishes.unserved h hguard.1 hcontent hnode hserving hid
    refine ⟨hnew publishes.toSaves hunserved, h.saves publishes.toSaves hunserved ?_
      publishes.deletions publishes.begun⟩
    intro id hid
    rw [publishes.sites, if_neg (h.ne_of_live publishes.found publishes.live hid)]
  | rebuild call targets rebuilds =>
    have hunserved : ∀ n node d, Content call.materials n d → s.store.nodes.find? n = some node →
        call.serving node = true → ∀ id ∈ s.begun, ¬ d.serves id :=
      fun n node d hcontent hnode hserving id hid =>
        rebuilds.unserved hguard.1 hcontent hnode hserving hid
    refine ⟨hnew rebuilds.toSaves hunserved, h.saves rebuilds.toSaves hunserved ?_
      rebuilds.deletions rebuilds.begun⟩
    intro id _
    rw [rebuilds.sites]
  | begin siteID taskID row begins =>
    exact ⟨hquiet begins.states, h.begin hs.tables begins⟩
  | stage siteID taskID row now call targets stages =>
    exact ⟨hnew stages.toSaves fun n node d hcontent hnode hserving id hid =>
      stages.unserved hguard.1 hcontent hnode hserving hid, h.stage stages hguard rfl⟩
  | confirm siteID taskID confirms history =>
    refine ⟨hquiet confirms.states, h.congr ?_ ?_ ?_ confirms.issued history.begun⟩
    · intro id _
      rw [confirms.sites]
    · intro id _ hstaged
      rw [Store.staged, confirms.deletions] at hstaged
      split at hstaged
      · next hid =>
        rw [Store.staged, hid, confirms.phase]
        rfl
      · exact hstaged
    · rw [confirms.states]
      exact fun _ hmem => hmem
  | remove siteID taskID removes history =>
    exact ⟨hquiet removes.states, h.remove removes history.begun⟩
  | node effect history =>
    have hstates : ∀ row ∈ (step s a).store.nodeStates.rows, row ∈ s.store.nodeStates.rows := by
      intro row hmem
      have hfind := Table.find?_of_mem (T := (step s a).store.nodeStates) hmem
      rcases effect.state (key row) with hsame | ⟨hnone, -⟩
      · rw [hsame] at hfind
        exact Table.mem_of_find? hfind
      · rw [hnone] at hfind
        cases hfind
    refine ⟨?_, h.congr ?_ ?_ hstates effect.issued history.begun⟩
    · intro row hmem
      simp only [State.newRows, List.mem_filter, decide_eq_true_eq] at hmem
      exact absurd (hstates row hmem.1) hmem.2
    · intro id _
      rw [effect.sites]
    · intro id _ hstaged
      rw [Store.staged, Store.deletionOf, effect.deletions] at hstaged
      exact hstaged

end Steps

/-! ### Runs -/

/-- In a run in which no call meets the publication of a site in deletion and every removal
reaches the nodes that serve its site, no step saves a state that serves a site in deletion, and a
site whose row is gone is served nowhere. -/
theorem withdrawn_of_withdraws {as : List Action} (h : Along step Withdraws initial as) :
    Along step SavesWithout initial as ∧ Always step RemovedUnserved initial as := by
  have hstart : WellFormed initial ∧ Leaving initial := ⟨wellFormed_initial, leaving_initial⟩
  have hstep : ∀ s a, WellFormed s ∧ Leaving s → Withdraws s a →
      WellFormed (step s a) ∧ Leaving (step s a) :=
    fun s a hs hguard => ⟨step_wellFormed hs.1 a, (leaving_step hs.1 hs.2 hguard).2⟩
  constructor
  · exact h.of_invariant hstep (fun s a hs hguard => (leaving_step hs.1 hs.2 hguard).1) hstart
  · exact (h.always hstep hstart).mono fun s hs => hs.2.removedUnserved

/-- A site is published on an edge and deleted; the edge confirms that it is gone. -/
def deletedSite : List Action :=
  enrolled "edge" ++
    [.createSite "site" (forwardDraft "site" ["edge"] 9000 1) "zone" 2, .publishSite "site" "task" 3,
      applied "edge" 1 4, .beginDeletion "site" "removal" "admin" "" 5,
      .advanceDeletion "removal" (.ok ()) 6, applied "edge" 2 7,
      .advanceDeletion "removal" (.ok ()) 8, .advanceDeletion "removal" (.ok ()) 9]

set_option maxRecDepth 20000 in
theorem deletedSite_withdrawn :
    ((run step initial deletedSite).store.sites.find? "site" = none ∧
      "site" ∈ (run step initial deletedSite).begun) ∧
    Along step SavesWithout initial deletedSite ∧ Always step RemovedUnserved initial deletedSite :=
  ⟨by decide, withdrawn_of_withdraws (by decide)⟩

/-- The same, but a setting is saved while the edge has not confirmed yet, and all nodes are
published. -/
def rebuiltWhileDeleted : List Action :=
  enrolled "edge" ++
    [.createSite "site" (forwardDraft "site" ["edge"] 9000 1) "zone" 2, .publishSite "site" "task" 3,
      applied "edge" 1 4, .beginDeletion "site" "removal" "admin" "" 5,
      .advanceDeletion "removal" (.ok ()) 6, .setPolicies [] [] 5, .publishAll 7,
      applied "edge" 3 8, .advanceDeletion "removal" (.ok ()) 9,
      .advanceDeletion "removal" (.ok ()) 10]

set_option maxRecDepth 20000 in
/-- The row is gone, and the edge's state serves the site. -/
theorem rebuiltWhileDeleted_served :
    "site" ∈ (run step initial rebuiltWhileDeleted).begun ∧
      (run step initial rebuiltWhileDeleted).store.sites.find? "site" = none ∧
      ∃ row ∈ (run step initial rebuiltWhileDeleted).store.nodeStates.rows,
        row.state.serves "site" := by
  decide

end SimpleCdn.Deployment
