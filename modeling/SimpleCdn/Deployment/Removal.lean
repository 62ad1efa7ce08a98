import Mathlib
import SimpleCdn.Deployment.Targets
import SimpleCdn.Deployment.Withdrawal

/-!
# A row is removed when the nodes have let go of the site

`CompleteSiteDeletion` removes the row of a site once every target of the deletion's task has
succeeded.  A node that must let go of the site need not have a target: one that stores a state
without the site already, from an earlier attempt for instance, gets none, and nobody asks which
version it has applied.  So the removal only waits for the nodes in runs where a node that keeps
its stored state has applied it (`KeepsApplied`), where no node turns active while the removal is
staged without a target of its own (`NoneArrives`), and where the site is not rendered again in
the meantime (`NoStagedSite`).
-/

namespace SimpleCdn.Deployment

open Transition

/-- The states saved for the node since one of them served the site, the latest first. -/
def State.savedWithout (s : State) (n siteID : String) : List NodeStateRow :=
  (s.savedFor n).takeWhile fun row => ¬ row.state.serves siteID

/-- The node has applied a state without the site, and no later one has been saved with it. -/
def ConfirmedWithout (s : State) (siteID : String) (node : Node) : Prop :=
  ∃ row ∈ s.savedWithout node.id siteID, row.state.version ≤ node.appliedVersion

/-- A step that removes the row of a site: every active node that was assigned the site when the
deletion began, or is assigned it now, has confirmed a state without it. -/
def RemovesConfirmed (s : State) (a : Action) : Prop :=
  ∀ row ∈ s.store.sites.rows, (step s a).store.sites.find? row.id = none →
    ∀ node ∈ (step s a).store.nodes.rows, node.status = .active →
      (row.id, node.id) ∈ s.leaving ∨ assigned s.store row.id node.id = true →
        ConfirmedWithout (step s a) row.id node

/-- When a removal is staged, an active node of the site that keeps its state has applied it. -/
def KeepsApplied (s : State) (a : Action) : Prop :=
  ∀ row ∈ s.store.sites.rows, s.store.staged row.id = false →
    (step s a).store.staged row.id = true → ∀ call ∈ s.rendering a,
      ∀ node ∈ s.store.nodes.rows, node.status = .active → assigned s.store row.id node.id = true →
        call.keeps node = true → ∀ staterow ∈ s.store.nodeStates.rows,
          staterow.nodeID = node.id → staterow.state.version ≤ node.appliedVersion

/-- The node has a target of the deletion of the site. -/
def hasTarget (db : Store) (siteID n : String) : Bool :=
  db.publishTaskNodes.any fun target =>
    target.nodeID = n && (db.deletionOf siteID).any fun deletion => deletion.1 = target.taskID

/-- A node that turns active while the removal of one of its sites is staged has a target, or has
applied its stored state, which is without the site. -/
def NoneArrives (s : State) (a : Action) : Prop :=
  ∀ node ∈ (step s a).store.nodes.rows, node.status = .active → ∀ row ∈ s.store.sites.rows,
    s.store.staged row.id = true → assigned s.store row.id node.id = true →
      (∃ old ∈ s.store.nodes.rows, old.id = node.id ∧ old.status = .active) ∨
      hasTarget s.store row.id node.id = true ∨
      ∃ staterow ∈ s.store.nodeStates.rows, staterow.nodeID = node.id ∧
        ¬ staterow.state.serves row.id ∧ staterow.state.version ≤ node.appliedVersion

def LetsGo (s : State) (a : Action) : Prop :=
  NoStagedSite s a ∧ KeepsApplied s a ∧ NoneArrives s a

instance (s : State) (a : Action) : Decidable (RemovesConfirmed s a) := by
  unfold RemovesConfirmed ConfirmedWithout
  infer_instance

instance (s : State) (a : Action) : Decidable (NoStagedSite s a) := by
  unfold NoStagedSite
  infer_instance

instance (s : State) (a : Action) : Decidable (KeepsApplied s a) := by
  unfold KeepsApplied
  infer_instance

instance (s : State) (a : Action) : Decidable (NoneArrives s a) := by
  unfold NoneArrives
  infer_instance

instance (s : State) (a : Action) : Decidable (LetsGo s a) :=
  inferInstanceAs (Decidable (_ ∧ _ ∧ _))

/-! ### A site that is being deleted -/

section Sites

variable {s s' : State} {a : Action} {id t n : String} {phase : SiteDeletionPhase}

theorem assigned_congr {db db' : Store}
    (hsites : (db'.sites.find? id).map Site.nodes = (db.sites.find? id).map Site.nodes)
    (hpublications : db'.sitePublications.find? id = db.sitePublications.find? id) (n : String) :
    assigned db' id n = assigned db id n := by
  have hany : ∀ db : Store, (db.sites.find? id).any (fun site => site.nodes.contains n) =
      ((db.sites.find? id).map Site.nodes).any fun nodes => nodes.contains n := by
    intro db
    cases db.sites.find? id with
    | none => rfl
    | some row => rfl
  rw [assigned, assigned, hany, hany, hsites, hpublications]

/-- Drafts and publications of a site in deletion stay as they are until its row is removed. -/
theorem Effect.deleting_kept {r : Option RenderCall} (h : Effect r s s') (hs : Consistent s.store)
    {row : Site} (hrow : s.store.sites.find? id = some row) (hdeleting : row.deleting = true) :
    s'.store.sites.find? id = none ∨ ∃ row', s'.store.sites.find? id = some row' ∧
      row'.deleting = true ∧ ∀ n, assigned s'.store id n = assigned s.store id n := by
  have hsame : s'.store.sites.find? id = s.store.sites.find? id →
      s'.store.sitePublications.find? id = s.store.sitePublications.find? id →
      s'.store.sites.find? id = none ∨ ∃ row', s'.store.sites.find? id = some row' ∧
        row'.deleting = true ∧ ∀ n, assigned s'.store id n = assigned s.store id n := by
    intro hsites hpublications
    refine .inr ⟨row, hsites.trans hrow, hdeleting, assigned_congr ?_ hpublications⟩
    rw [hsites]
  cases h with
  | tables tables history => exact hsame (by rw [tables.sites]) (by rw [tables.publications])
  | site k row' written history =>
    refine hsame ?_ (by rw [written.publications])
    rw [written.sites, if_neg]
    rintro rfl
    rcases written.origin with ⟨hnone, -, -⟩ | ⟨old, hold, hlive⟩
    · rw [hnone] at hrow
      cases hrow
    · rw [Option.some.inj (hold.symm.trans hrow), hdeleting] at hlive
      cases hlive
  | publish siteID old now call targets publishes =>
    have hne : id ≠ siteID := by
      rintro rfl
      have hlive := publishes.live
      rw [Option.some.inj (publishes.found.symm.trans hrow), hdeleting] at hlive
      cases hlive
    exact hsame (by rw [publishes.sites, if_neg hne]) (by rw [publishes.publications, if_neg hne])
  | rebuild call targets rebuilds =>
    exact hsame (by rw [rebuilds.sites]) (by rw [rebuilds.publications])
  | begin siteID taskID old begins =>
    obtain ⟨now, hsites⟩ := begins.sites
    by_cases hid : id = siteID
    · subst hid
      obtain rfl := Option.some.inj (begins.found.symm.trans hrow)
      have hfind := hsites id
      rw [if_pos rfl] at hfind
      refine .inr ⟨_, hfind, rfl, assigned_congr ?_ (by rw [begins.publications])⟩
      rw [hfind, hrow]
      rfl
    · exact hsame (by rw [hsites, if_neg hid]) (by rw [begins.publications])
  | stage siteID taskID old now call targets stages =>
    exact hsame (by rw [stages.sites]) (by rw [stages.publications])
  | confirm siteID taskID confirms history =>
    exact hsame (by rw [confirms.sites]) (by rw [confirms.publications])
  | remove siteID taskID removes history =>
    by_cases hid : id = siteID
    · exact .inl (by rw [removes.sites, if_pos hid])
    · exact hsame (by rw [removes.sites, if_neg hid]) (by rw [removes.publications, if_neg hid])
  | node effect history => exact hsame (by rw [effect.sites]) (by rw [effect.publications])

/-- A call does not save a site that is staged, when it renders it from no draft. -/
theorem Saves.new_unserved {call : RenderCall} {targets : List PublishTaskNode}
    (h : Saves (s.rendering a) s s' call targets) (hguard : NoStagedSite s a)
    (hmaterial : ∀ material ∈ call.materials, material.site.id = id →
      ∃ p ∈ s.store.sitePublications, p.material = material ∧ s.store.staged id = true)
    {row : NodeStateRow} (hrow : row ∈ s.newRows s'.store) : ¬ row.state.serves id := by
  intro hserves
  simp only [State.newRows, List.mem_filter, decide_eq_true_eq] at hrow
  rcases h.mem_states hrow.1 with ⟨node, hnode, hserving, hcontent⟩ | ⟨-, hold⟩
  · obtain ⟨material, hmem, hlisted, hmid, henabled⟩ := hcontent.serves id hserves
    obtain ⟨p, hp, rfl, hstaged⟩ := hmaterial material hmem hmid
    have hunstaged := unstaged_of_guard hguard h.rendering hnode hserving hp henabled hlisted
    have hpid : p.site.id = id := hmid
    rw [hpid, hstaged] at hunstaged
    cases hunstaged
  · exact absurd hold hrow.2

/-- No state that is saved while the removal of a site is staged serves the site. -/
theorem Effect.new_unserved (h : Effect (s.rendering a) s s') (hs : Consistent s.store)
    (hguard : NoStagedSite s a) (hstaged : s.store.staged id = true) :
    ∀ row ∈ s.newRows s'.store, ¬ row.state.serves id := by
  have hquiet : s'.store.nodeStates = s.store.nodeStates →
      ∀ row ∈ s.newRows s'.store, ¬ row.state.serves id := by
    intro hstates row hrow
    rw [newRows_eq_nil hstates] at hrow
    cases hrow
  cases h with
  | tables tables history => exact hquiet tables.states
  | site k row' written history => exact hquiet written.states
  | publish siteID old now call targets publishes =>
    intro row hrow
    refine publishes.toSaves.new_unserved hguard (fun material hmem hmid => ?_) hrow
    rcases ((publishes.site.material material).mp hmem).2 with ⟨p, hp, -, hmaterial⟩ | ⟨-, rfl⟩
    · rw [publishes.base.publications] at hp
      exact ⟨p, hp, hmaterial, hstaged⟩
    · -- the draft that is published is live
      have hkey : old.id = siteID := Table.key_of_find? publishes.found
      obtain rfl : siteID = id := hkey.symm.trans hmid
      rw [Store.staged, Option.any_eq_true] at hstaged
      obtain ⟨⟨t, phase⟩, hdeletion, -⟩ := hstaged
      obtain ⟨marked, hmarked, hdeleting⟩ := hs.deletionRow siteID t phase hdeletion
      rw [Option.some.inj (hmarked.symm.trans publishes.found), publishes.live] at hdeleting
      cases hdeleting
  | rebuild call targets rebuilds =>
    intro row hrow
    refine rebuilds.toSaves.new_unserved hguard (fun material hmem hmid => ?_) hrow
    rw [rebuilds.materials] at hmem
    obtain ⟨p, hp, -, hmaterial⟩ := mem_publicationMaterials.mp hmem
    exact ⟨p, hp, hmaterial, hstaged⟩
  | begin siteID taskID old begins => exact hquiet begins.states
  | stage siteID taskID old now call targets stages =>
    intro row hrow
    refine stages.toSaves.new_unserved hguard (fun material hmem hmid => ?_) hrow
    rcases ((stages.site.material material).mp hmem).2 with ⟨p, hp, -, hmaterial⟩ | ⟨hno, -⟩
    · rw [stages.base.publications] at hp
      exact ⟨p, hp, hmaterial, hstaged⟩
    · cases hno
  | confirm siteID taskID confirms history => exact hquiet confirms.states
  | remove siteID taskID removes history => exact hquiet removes.states
  | node effect history =>
    intro row hrow
    rw [newRows_of_nodeEffect effect] at hrow
    cases hrow

/-- The targets an action creates belong to a deletion only when it stages it. -/
theorem Effect.settles_of_deletion {r : Option RenderCall} (h : Effect r s s')
    (hs : Consistent s.store) (hdeletion : s.store.deletionOf id = some (t, phase))
    (hphase : s'.store.deletionOf id = s.store.deletionOf id ∨ phase ≠ .withdrawingDNS) :
    ∃ new, Store.Settles new s.store s'.store ∧ ∀ row ∈ new, row.taskID ≠ t := by
  obtain ⟨task, htask, -⟩ := hs.deletionTask id t phase hdeletion
  cases h with
  | tables tables history => exact ⟨[], history.settles, by nofun⟩
  | site k row' written history => exact ⟨[], history.settles, by nofun⟩
  | publish siteID old now call targets publishes =>
    obtain ⟨taskID, hnew, -⟩ := publishes.committed
    refine ⟨_, hnew.settles, fun row hrow => ?_⟩
    obtain ⟨target, -, rfl⟩ := Store.mem_targetRows.mp hrow
    rintro rfl
    rw [hnew.fresh] at htask
    cases htask
  | rebuild call targets rebuilds => exact ⟨[], rebuilds.settles, by nofun⟩
  | begin siteID taskID old begins => exact ⟨[], begins.settles, by nofun⟩
  | stage siteID taskID old now call targets stages =>
    refine ⟨_, stages.settles, fun row hrow => ?_⟩
    obtain ⟨target, -, rfl⟩ := Store.mem_targetRows.mp hrow
    rintro rfl
    obtain rfl := hs.site_of_task hdeletion stages.phase
    have hwithdrawing := hdeletion.symm.trans stages.phase
    rcases hphase with hsame | hphase
    · rw [stages.deletions, if_pos rfl, stages.phase] at hsame
      cases hsame
    · cases hwithdrawing
      exact hphase rfl
  | confirm siteID taskID confirms history => exact ⟨[], history.settles, by nofun⟩
  | remove siteID taskID removes history => exact ⟨[], history.settles, by nofun⟩
  | node effect history => exact ⟨[], history.settles, by nofun⟩

/-! ### Saved states without the site -/

theorem Effect.mem_savedWithout {r : Option RenderCall} (h : Effect r s s')
    (hnew : ∀ row ∈ s.newRows s'.store, ¬ row.state.serves id) {row : NodeStateRow}
    (hrow : row ∈ s.savedWithout n id) : row ∈ s'.savedWithout n id := by
  rw [State.savedWithout, State.savedFor, h.saved, List.filter_append, List.takeWhile_append_of_pos]
  · exact List.mem_append_right _ hrow
  · intro new hmem
    simpa using hnew new (List.mem_of_mem_filter hmem)

theorem Tracked.mem_savedWithout (h : Tracked s) {row : NodeStateRow}
    (hrow : s.store.nodeStates.find? n = some row) (hserves : ¬ row.state.serves id) :
    row ∈ s.savedWithout n id := by
  obtain ⟨earlier, hsaved⟩ := h.latest n row hrow
  rw [State.savedWithout, hsaved, List.takeWhile_cons_of_pos (by simpa using hserves)]
  exact List.mem_cons_self

theorem hasTarget_iff (hdeletion : s.store.deletionOf id = some (t, phase)) :
    hasTarget s.store id n = true ↔
      ∃ target ∈ s.store.publishTaskNodes, target.taskID = t ∧ target.nodeID = n := by
  simp only [hasTarget, hdeletion, Option.any_some, Table.any_eq_true, Bool.and_eq_true,
    decide_eq_true_eq]
  constructor
  · rintro ⟨target, hmem, hnode, htask⟩
    exact ⟨target, hmem, htask.symm, hnode⟩
  · rintro ⟨target, hmem, htask, hnode⟩
    exact ⟨target, hmem, hnode, htask.symm⟩

/-! ### The invariant -/

/-- What holds of a deletion with this task in this phase. -/
structure SiteLeaves (s : State) (id t : String) (phase : SiteDeletionPhase) : Prop where
  withdrawing : phase = .withdrawingDNS → ∀ target ∈ s.store.publishTaskNodes, target.taskID ≠ t
  target : phase ≠ .withdrawingDNS → ∀ target ∈ s.store.publishTaskNodes, target.taskID = t →
    ∃ row ∈ s.savedWithout target.nodeID id, row.state.version ≤ target.targetVersion
  succeeded : phase = .finalizing → ∀ target ∈ s.store.publishTaskNodes, target.taskID = t →
    target.status = .succeeded
  node : phase ≠ .withdrawingDNS → ∀ n node, s.store.nodes.find? n = some node →
    node.status = .active → assigned s.store id n = true →
      (∃ target ∈ s.store.publishTaskNodes, target.taskID = t ∧ target.nodeID = n) ∨
      ∃ row ∈ s.savedWithout n id, row.state.version ≤ node.appliedVersion

structure Removing (s : State) : Prop where
  deletion : ∀ id t phase, s.store.deletionOf id = some (t, phase) → SiteLeaves s id t phase
  leaving : ∀ id n, (id, n) ∈ s.leaving → id ∈ s.store.issuedIDs ∧
    ∀ row, s.store.sites.find? id = some row →
      row.deleting = true ∧ assigned s.store id n = true

theorem removing_initial : Removing initial := by
  constructor
  case deletion => simp [initial, Store.empty, Store.deletionOf]
  case leaving =>
    intro siteID nodeID h
    cases h

/-- A deletion that stays in its phase. -/
theorem SiteLeaves.next (h : SiteLeaves s id t phase) (heffect : Effect (s.rendering a) s s')
    (hs : Consistent s.store) (hs' : s' = step s a) (htracked : Tracked s) (hguard : LetsGo s a)
    (hdeletion : s.store.deletionOf id = some (t, phase))
    (hphase : s'.store.deletionOf id = s.store.deletionOf id ∨ phase ≠ .withdrawingDNS)
    (hassigned : ∀ n, assigned s'.store id n = assigned s.store id n) :
    SiteLeaves s' id t phase := by
  obtain ⟨new, hsettles, hother⟩ := heffect.settles_of_deletion hs hdeletion hphase
  obtain ⟨hstagedSite, -, harrives⟩ := hguard
  have hnew : phase ≠ .withdrawingDNS → ∀ row ∈ s.newRows s'.store, ¬ row.state.serves id := by
    intro hstaged
    refine heffect.new_unserved hs hstagedSite ?_
    rw [Store.staged, hdeletion]
    simpa using hstaged
  -- a target of the deletion was there before
  have hold : ∀ target' ∈ s'.store.publishTaskNodes, target'.taskID = t →
      ∃ target ∈ s.store.publishTaskNodes, target.taskID = t ∧ target.nodeID = target'.nodeID ∧
        Store.TargetMoves s'.store target target' := by
    intro target' hmem htask
    rcases hsettles.target _ target' (Table.find?_of_mem hmem) with ⟨target, hfind, hmove⟩ | ⟨-, hno⟩
    · exact ⟨target, Table.mem_of_find? hfind, (Store.taskID_of_find? hfind).trans htask,
        Store.nodeID_of_find? hfind, hmove⟩
    · exact absurd htask (hother target' hno)
  constructor
  case withdrawing =>
    intro hwithdrawing target' hmem htask
    obtain ⟨target, hmem', htask', -⟩ := hold target' hmem htask
    exact h.withdrawing hwithdrawing target hmem' htask'
  case target =>
    intro hstaged target' hmem htask
    obtain ⟨target, hmem', htask', hnode, hmove⟩ := hold target' hmem htask
    obtain ⟨row, hrow, hle⟩ := h.target hstaged target hmem' htask'
    rw [hnode] at hrow
    rw [← hmove.version] at hle
    exact ⟨row, heffect.mem_savedWithout (hnew hstaged) hrow, hle⟩
  case succeeded =>
    intro hfinal target' hmem htask
    obtain ⟨target, hmem', htask', -, hmove⟩ := hold target' hmem htask
    have hsucceeded := h.succeeded hfinal target hmem' htask'
    rcases hmove.status with hsame | ⟨hpending, -⟩
    · rw [hsame, hsucceeded]
    · rw [hsucceeded] at hpending
      cases hpending
  case node =>
    intro hstaged n node' hnode' hactive hlisted
    rw [hassigned] at hlisted
    have hid : node'.id = n := Table.key_of_find? hnode'
    -- a target is lost only with its node
    have hkept : ∀ target ∈ s.store.publishTaskNodes, target.taskID = t → target.nodeID = n →
        ∃ target' ∈ s'.store.publishTaskNodes, target'.taskID = t ∧ target'.nodeID = n := by
      intro target hmem htask hnode
      rcases hsettles.targetKept _ target (Table.find?_of_mem hmem) with ⟨target', hfind⟩ | hgone
      · exact ⟨target', Table.mem_of_find? hfind, (Store.taskID_of_find? hfind).trans htask,
          (Store.nodeID_of_find? hfind).trans hnode⟩
      · rw [hnode, hnode'] at hgone
        cases hgone
    rcases heffect.node_cases hnode' with ⟨node, hnode, hadvance⟩ | ⟨-, hpending⟩
    · have hwas : node.status = .active ∨ hasTarget s.store id n = true ∨
          ∃ staterow ∈ s.store.nodeStates.rows, staterow.nodeID = n ∧
            ¬ staterow.state.serves id ∧ staterow.state.version ≤ node'.appliedVersion := by
        obtain ⟨row, hrow, -⟩ := hs.deletionRow id t phase hdeletion
        have hkey : row.id = id := Table.key_of_find? hrow
        have harrived := harrives node' (by rw [← hs']; exact Table.mem_of_find? hnode') hactive
          row (Table.mem_of_find? hrow)
        rw [hkey, hid] at harrived
        rcases harrived (by rw [Store.staged, hdeletion]; simpa using hstaged) hlisted with
          ⟨old, hmem, hold, hwas⟩ | hrest
        · have hfind := Table.find?_of_mem (T := s.store.nodes) hmem
          rw [key_node, hold, hnode] at hfind
          rw [Option.some.inj hfind]
          exact .inl hwas
        · exact .inr hrest
      rcases hwas with hwas | htarget | ⟨staterow, hmem, hkey, hserves, hle⟩
      · rcases h.node hstaged n node hnode hwas hlisted with ⟨target, hmem, htask, hn⟩ |
          ⟨row, hrow, hle⟩
        · exact .inl (hkept target hmem htask hn)
        · exact .inr ⟨row, heffect.mem_savedWithout (hnew hstaged) hrow,
            hle.trans hadvance.applied⟩
      · obtain ⟨target, hmem, htask, hn⟩ := (hasTarget_iff hdeletion).mp htarget
        exact .inl (hkept target hmem htask hn)
      · have hfind := Table.find?_of_mem (T := s.store.nodeStates) hmem
        rw [key_nodeStateRow, hkey] at hfind
        exact .inr ⟨staterow, heffect.mem_savedWithout (hnew hstaged)
          (htracked.mem_savedWithout hfind hserves), hle⟩
    · rw [hactive] at hpending
      cases hpending

/-- The removal of a site is rendered without the site. -/
theorem Stages.content_unserved {row : Site} {now : Time} {call : RenderCall}
    {targets : List PublishTaskNode} {d : DesiredState}
    (h : Stages (s.rendering a) s s' id t row now call targets)
    (hcontent : Content call.materials n d) : ¬ d.serves id := by
  intro hserves
  obtain ⟨material, hmem, -, hmid, -⟩ := hcontent.serves id hserves
  have hkey : row.id = id := Table.key_of_find? h.found
  rcases ((h.site.material material).mp hmem).2 with ⟨p, -, hne, rfl⟩ | ⟨hno, -⟩
  · rw [hkey] at hne
    exact hne hmid
  · cases hno

/-- Every active node of the site gets a target, or keeps a state it has applied. -/
theorem Stages.siteLeaves {row : Site} {now : Time} {call : RenderCall}
    {targets : List PublishTaskNode} (h : Stages (s.rendering a) s s' id t row now call targets)
    (hbefore : SiteLeaves s id t .withdrawingDNS) (hs' : s' = step s a) (htracked : Tracked s')
    (hguard : KeepsApplied s a) : SiteLeaves s' id t .waitingForEdges := by
  have hkey : row.id = id := Table.key_of_find? h.found
  constructor
  case withdrawing => nofun
  case succeeded => nofun
  case target =>
    intro _ target' hmem htask
    rcases h.settles.target _ target' (Table.find?_of_mem hmem) with ⟨target, hfind, -⟩ | ⟨-, hnew⟩
    · exact absurd ((Store.taskID_of_find? hfind).trans htask)
        (hbefore.withdrawing rfl target (Table.mem_of_find? hfind))
    · obtain ⟨target, htarget, rfl⟩ := Store.mem_targetRows.mp hnew
      obtain ⟨node, hnode, hid, hserving, -, -, staterow, hfind, hversion⟩ :=
        h.rebuilt.target target htarget
      obtain ⟨staterow', hfind', hrebuilt, -⟩ := h.rebuilt.serving node hnode hserving
      obtain rfl := Option.some.inj (hfind'.symm.trans hfind)
      rw [hid] at hfind
      exact ⟨staterow', htracked.mem_savedWithout hfind (h.content_unserved hrebuilt.content),
        hversion.le⟩
  case node =>
    intro _ n node hnode hactive hlisted
    have hid : node.id = n := Table.key_of_find? hnode
    rw [h.nodes] at hnode
    have hsame : assigned s'.store id n = assigned s.store id n :=
      assigned_congr (by rw [h.sites]) (by rw [h.publications]) n
    rw [hsame] at hlisted
    have haffected : n ∈ call.affected := by
      refine h.site.mem_affected ?_
      rw [assigned, h.found, Option.any_some, Bool.or_eq_true, Option.any_eq_true,
        List.contains_iff_mem] at hlisted
      rw [h.base.publications, hkey]
      simpa using hlisted
    have hserving : call.serving node = true :=
      RenderCall.serving_iff.mpr ⟨by rw [hid]; exact haffected, by rw [hactive]; rfl⟩
    have hmem : node ∈ call.db.nodes := by
      rw [h.base.nodes]
      exact Table.mem_of_find? hnode
    obtain ⟨staterow, hfind, hrebuilt, htarget⟩ := h.rebuilt.serving node hmem hserving
    cases hkeeps : call.keeps node with
    | false =>
      left
      have hrow := h.settles.created _ (Store.mem_targetRows.mpr ⟨_, htarget hactive hkeeps, rfl⟩)
      exact ⟨_, Table.mem_of_find? hrow, rfl, hid⟩
    | true =>
      right
      have hkept := hrebuilt.kept hkeeps
      rw [h.base.states] at hkept
      have hversion := hguard row (Table.mem_of_find? h.found)
        (by rw [hkey, Store.staged, h.phase]; rfl)
        (by rw [← hs', hkey, Store.staged, h.deletions, if_pos rfl]; rfl) call h.rendering node
        (Table.mem_of_find? hnode) hactive (by rw [hkey, hid]; exact hlisted) hkeeps staterow
        (Table.mem_of_find? hkept) (Table.key_of_find? hkept)
      rw [hid] at hfind
      exact ⟨staterow, htracked.mem_savedWithout hfind (h.content_unserved hrebuilt.content),
        hversion⟩

/-- The deletions afterwards: one in the phase it was in, or one that moves on. -/
theorem Effect.deletion_cases {r : Option RenderCall} (h : Effect r s s')
    (hdeletion : s'.store.deletionOf id = some (t, phase)) :
    s.store.deletionOf id = some (t, phase) ∨
    (phase = .withdrawingDNS ∧ ∃ row, Begins s s' id t row) ∨
    (phase = .waitingForEdges ∧ ∃ row now call targets, Stages r s s' id t row now call targets) ∨
    (phase = .finalizing ∧ Confirms s s' id t) := by
  cases h with
  | tables tables history => exact .inl (by rw [← tables.deletions]; exact hdeletion)
  | site k row' written history => exact .inl (by rw [← written.deletions]; exact hdeletion)
  | publish siteID row now call targets publishes =>
    exact .inl (by rw [← publishes.deletions]; exact hdeletion)
  | rebuild call targets rebuilds => exact .inl (by rw [← rebuilds.deletions]; exact hdeletion)
  | begin siteID taskID row begins =>
    rw [begins.deletions] at hdeletion
    split at hdeletion
    · next hid =>
      subst hid
      cases hdeletion
      exact .inr (.inl ⟨rfl, row, begins⟩)
    · exact .inl hdeletion
  | stage siteID taskID row now call targets stages =>
    rw [stages.deletions] at hdeletion
    split at hdeletion
    · next hid =>
      subst hid
      cases hdeletion
      exact .inr (.inr (.inl ⟨rfl, row, now, call, targets, stages⟩))
    · exact .inl hdeletion
  | confirm siteID taskID confirms history =>
    rw [confirms.deletions] at hdeletion
    split at hdeletion
    · next hid =>
      subst hid
      cases hdeletion
      exact .inr (.inr (.inr ⟨rfl, confirms⟩))
    · exact .inl hdeletion
  | remove siteID taskID removes history =>
    rw [removes.deletions] at hdeletion
    split at hdeletion
    · cases hdeletion
    · exact .inl hdeletion
  | node effect history =>
    left
    rw [Store.deletionOf, effect.deletions] at hdeletion
    exact hdeletion

/-- A row of a site was there before, or its identifier is new. -/
theorem Effect.site_cases {r : Option RenderCall} (h : Effect r s s') {row' : Site}
    (hrow' : s'.store.sites.find? id = some row') :
    id ∉ s.store.issuedIDs ∨ ∃ row, s.store.sites.find? id = some row := by
  cases h with
  | tables tables history => exact .inr ⟨row', by rw [← tables.sites]; exact hrow'⟩
  | site k new written history =>
    rw [written.sites] at hrow'
    split at hrow'
    · next hid =>
      rw [hid]
      refine written.origin.imp (fun hfresh => hfresh.2.1) ?_
      rintro ⟨row, hrow, -⟩
      exact ⟨row, hrow⟩
    · exact .inr ⟨row', hrow'⟩
  | publish siteID row now call targets publishes =>
    rw [publishes.sites] at hrow'
    split at hrow'
    · next hid => exact .inr ⟨row, by rw [hid]; exact publishes.found⟩
    · exact .inr ⟨row', hrow'⟩
  | rebuild call targets rebuilds => exact .inr ⟨row', by rw [← rebuilds.sites]; exact hrow'⟩
  | begin siteID taskID row begins =>
    obtain ⟨now, hsites⟩ := begins.sites
    rw [hsites] at hrow'
    split at hrow'
    · next hid => exact .inr ⟨row, by rw [hid]; exact begins.found⟩
    · exact .inr ⟨row', hrow'⟩
  | stage siteID taskID row now call targets stages =>
    exact .inr ⟨row', by rw [← stages.sites]; exact hrow'⟩
  | confirm siteID taskID confirms history =>
    exact .inr ⟨row', by rw [← confirms.sites]; exact hrow'⟩
  | remove siteID taskID removes history =>
    rw [removes.sites] at hrow'
    split at hrow'
    · cases hrow'
    · exact .inr ⟨row', hrow'⟩
  | node effect history => exact .inr ⟨row', by rw [← effect.sites]; exact hrow'⟩

theorem Effect.leaving_cases {r : Option RenderCall} (h : Effect r s s') :
    s'.leaving = s.leaving ∨ ∃ siteID taskID row, Begins s s' siteID taskID row := by
  cases h with
  | tables tables history => exact .inl history.leaving
  | site id row' written history => exact .inl history.leaving
  | publish siteID row now call targets publishes => exact .inl publishes.leaving
  | rebuild call targets rebuilds => exact .inl rebuilds.leaving
  | begin siteID taskID row begins => exact .inr ⟨siteID, taskID, row, begins⟩
  | stage siteID taskID row now call targets stages => exact .inl stages.leaving
  | confirm siteID taskID confirms history => exact .inl history.leaving
  | remove siteID taskID removes history => exact .inl history.leaving
  | node effect history => exact .inl history.leaving

end Sites

/-! ### Runs -/

section Runs

variable {s : State} {a : Action}

/-- A site that is being deleted stays assigned to its nodes. -/
theorem Removing.leaving_next {s' : State} {r : Option RenderCall} (h : Removing s)
    (hs : Consistent s.store) (hs' : Consistent s'.store) (heffect : Effect r s s') {id n : String}
    (hleaving : (id, n) ∈ s'.leaving) : id ∈ s'.store.issuedIDs ∧
      ∀ row, s'.store.sites.find? id = some row →
        row.deleting = true ∧ assigned s'.store id n = true := by
  have hold : (id, n) ∈ s.leaving → id ∈ s'.store.issuedIDs ∧
      ∀ row, s'.store.sites.find? id = some row →
        row.deleting = true ∧ assigned s'.store id n = true := by
    intro hmem
    obtain ⟨hissued, hrow⟩ := h.leaving id n hmem
    refine ⟨heffect.issued hissued, fun row' hrow' => ?_⟩
    cases hfind : s.store.sites.find? id with
    | none =>
      -- a row that is gone does not come back
      rcases heffect.site_cases hrow' with hfresh | ⟨row, hrow⟩
      · exact absurd hissued hfresh
      · rw [hfind] at hrow
        cases hrow
    | some row =>
      obtain ⟨hdeleting, hassigned⟩ := hrow row hfind
      rcases heffect.deleting_kept hs hfind hdeleting with hnone | ⟨kept, hkept, hmarked, hsame⟩
      · rw [hnone] at hrow'
        cases hrow'
      · obtain rfl := Option.some.inj (hkept.symm.trans hrow')
        exact ⟨hmarked, (hsame n).trans hassigned⟩
  rcases heffect.leaving_cases with hsame | ⟨siteID, taskID, row, hbegins⟩
  · rw [hsame] at hleaving
    exact hold hleaving
  · rw [hbegins.leaving, List.mem_append] at hleaving
    rcases hleaving with hleaving | hleaving
    · obtain ⟨node, hnode, heq⟩ := List.mem_map.mp hleaving
      obtain ⟨rfl, rfl⟩ := Prod.mk.inj heq
      simp only [List.mem_filter, Bool.and_eq_true, decide_eq_true_eq] at hnode
      obtain ⟨now, hsites⟩ := hbegins.sites
      have hfind := hsites siteID
      rw [if_pos rfl] at hfind
      refine ⟨hs'.siteIssued siteID _ hfind, fun row' hrow' => ?_⟩
      obtain rfl := Option.some.inj (hfind.symm.trans hrow')
      refine ⟨rfl, (assigned_congr ?_ ?_ _).trans hnode.2.2⟩
      · rw [hfind, hbegins.found]
        rfl
      · rw [hbegins.publications]
    · exact hold hleaving

theorem removing_step (hs : WellFormed s) (htracked : Tracked s) (h : Removing s)
    (hguard : LetsGo s a) : Removing (step s a) := by
  have heffect := step_effect hs a
  have hs' := (step_wellFormed hs a).tables
  constructor
  case leaving =>
    intro id n hleaving
    exact h.leaving_next hs.tables hs' heffect hleaving
  case deletion =>
    intro id t phase hdeletion
    obtain ⟨row', hrow', -⟩ := hs'.deletionRow id t phase hdeletion
    -- the row of a site in deletion, before and after
    have hassigned : ∀ phase', s.store.deletionOf id = some (t, phase') →
        ∀ n, assigned (step s a).store id n = assigned s.store id n := by
      intro phase' hold
      obtain ⟨row, hrow, hdeleting⟩ := hs.tables.deletionRow id t phase' hold
      rcases heffect.deleting_kept hs.tables hrow hdeleting with hnone | ⟨-, -, -, hsame⟩
      · rw [hnone] at hrow'
        cases hrow'
      · exact hsame
    rcases heffect.deletion_cases hdeletion with hold | ⟨rfl, row, hbegins⟩ |
      ⟨rfl, row, now, call, targets, hstages⟩ | ⟨rfl, hconfirms⟩
    · exact (h.deletion id t phase hold).next heffect hs.tables rfl htracked hguard hold
        (.inl (hdeletion.trans hold.symm)) (hassigned phase hold)
    · constructor
      case withdrawing =>
        intro _ target' hmem htask
        rcases hbegins.settles.target _ target' (Table.find?_of_mem hmem) with
          ⟨target, hfind, -⟩ | ⟨-, hno⟩
        · -- the task of the deletion is new
          obtain ⟨task, hold⟩ := htracked.task target (Table.mem_of_find? hfind)
          have hid : target.taskID = target'.taskID := Store.taskID_of_find? hfind
          rw [hid, htask, hbegins.fresh] at hold
          cases hold
        · cases hno
      case target => exact fun hne => absurd rfl hne
      case succeeded => nofun
      case node => exact fun hne => absurd rfl hne
    · exact hstages.siteLeaves (h.deletion id t _ hstages.phase) rfl
        (tracked_step hs htracked a) hguard.2.1
    · have hnext := (h.deletion id t _ hconfirms.phase).next heffect hs.tables rfl htracked hguard
        hconfirms.phase (.inr (by nofun)) (hassigned _ hconfirms.phase)
      exact ⟨nofun, fun _ => hnext.target nofun, fun _ => hconfirms.targets,
        fun _ => hnext.node nofun⟩

/-- Only the last round of a deletion removes a row. -/
theorem Effect.removed {r : Option RenderCall} {s' : State} (h : Effect r s s') {id : String}
    {row : Site} (hrow : s.store.sites.find? id = some row)
    (hgone : s'.store.sites.find? id = none) :
    ∃ taskID, Removes s s' id taskID ∧ SameHistory s s' := by
  have hkept : s'.store.sites.find? id = s.store.sites.find? id →
      ∃ taskID, Removes s s' id taskID ∧ SameHistory s s' := by
    intro hsame
    rw [hsame, hrow] at hgone
    cases hgone
  cases h with
  | tables tables history => exact hkept (by rw [tables.sites])
  | site k new written history =>
    rw [written.sites] at hgone
    split at hgone
    · cases hgone
    · rw [hrow] at hgone
      cases hgone
  | publish siteID old now call targets publishes =>
    rw [publishes.sites] at hgone
    split at hgone
    · cases hgone
    · rw [hrow] at hgone
      cases hgone
  | rebuild call targets rebuilds => exact hkept (by rw [rebuilds.sites])
  | begin siteID taskID old begins =>
    obtain ⟨now, hsites⟩ := begins.sites
    rw [hsites] at hgone
    split at hgone
    · cases hgone
    · rw [hrow] at hgone
      cases hgone
  | stage siteID taskID old now call targets stages => exact hkept (by rw [stages.sites])
  | confirm siteID taskID confirms history => exact hkept (by rw [confirms.sites])
  | remove siteID taskID removes history =>
    by_cases hid : id = siteID
    · subst hid
      exact ⟨taskID, removes, history⟩
    · exact hkept (by rw [removes.sites, if_neg hid])
  | node effect history => exact hkept (by rw [effect.sites])

/-- What a removal finds of the nodes of its site. -/
theorem Removing.removesConfirmed (hs : WellFormed s) (htracked : Tracked s) (h : Removing s) :
    RemovesConfirmed s a := by
  intro row hrow hgone node hnode hactive hlisted
  have hfind : s.store.sites.find? row.id = some row := Table.find?_of_mem hrow
  obtain ⟨taskID, hremoves, hhistory⟩ := (step_effect hs a).removed hfind hgone
  have hassigned : assigned s.store row.id node.id = true := by
    rcases hlisted with hleaving | hassigned
    · exact ((h.leaving _ _ hleaving).2 row hfind).2
    · exact hassigned
  have hnode' : s.store.nodes.find? node.id = some node := by
    rw [← hremoves.nodes]
    exact Table.find?_of_mem hnode
  have hsaved : ∀ n, (step s a).savedWithout n row.id = s.savedWithout n row.id := by
    intro n
    rw [State.savedWithout, State.savedFor, hhistory.saved]
    rfl
  have hleaves := h.deletion row.id taskID .finalizing hremoves.phase
  rw [ConfirmedWithout, hsaved]
  rcases hleaves.node (by rintro ⟨⟩) node.id node hnode' hactive hassigned with
    ⟨target, hmem, htask, hid⟩ | hconfirmed
  · -- the target has succeeded, so its node has applied the version
    obtain ⟨staterow, hstate, hle⟩ := hleaves.target (by rintro ⟨⟩) target hmem htask
    have happlied := htracked.applied target hmem (hleaves.succeeded rfl target hmem htask) node
      (by rw [hid]; exact hnode')
    rw [hid] at hstate
    exact ⟨staterow, hstate, hle.trans happlied⟩
  · exact hconfirmed

end Runs

/-- In a run in which every node that keeps its state at a staging has applied it, none arrives
unconfirmed and no staged site is rendered, a row is only removed when the active nodes of the
site have confirmed a state without it. -/
theorem removesConfirmed_of_letsGo {as : List Action} (h : Along step LetsGo initial as) :
    Along step RemovesConfirmed initial as :=
  h.of_invariant (P := fun s => WellFormed s ∧ Tracked s ∧ Removing s)
    (fun s a hs hguard => ⟨step_wellFormed hs.1 a, tracked_step hs.1 hs.2.1 a,
      removing_step hs.1 hs.2.1 hs.2.2 hguard⟩)
    (fun _ _ hs _ => hs.2.2.removesConfirmed hs.1 hs.2.1)
    ⟨wellFormed_initial, tracked_initial, removing_initial⟩

set_option maxRecDepth 20000 in
theorem deletedSite_removesConfirmed : Along step RemovesConfirmed initial deletedSite :=
  removesConfirmed_of_letsGo (by decide)

/-- The first deletion ends when the edge reports that it cannot apply the state without the site;
the second finds that state stored. -/
def deletedAgain : List Action :=
  enrolled "edge" ++
    [.createSite "site" (forwardDraft "site" ["edge"] 9000 1) "zone" 2, .publishSite "site" "task" 3,
      applied "edge" 1 4, .beginDeletion "site" "removal" "admin" "" 5,
      .advanceDeletion "removal" (.ok ()) 6,
      .node (.heartbeat "edge" 1 "" (some ⟨2, .failed, "nginx", "reload failed"⟩) "" "" "") 7,
      .advanceDeletion "removal" (.ok ()) 8, .beginDeletion "site" "second" "admin" "" 9,
      .advanceDeletion "second" (.ok ()) 10, .advanceDeletion "second" (.ok ()) 11,
      .advanceDeletion "second" (.ok ()) 12]

set_option maxRecDepth 20000 in
/-- The row is removed while the edge still runs the version with the site. -/
theorem deletedAgain_not_confirmed : ¬ Along step RemovesConfirmed initial deletedAgain := by
  decide

end SimpleCdn.Deployment
