import SimpleCdn.Deployment.Effects

/-!
# What the tables always agree on

`Consistent` collects what holds of the database in every reachable state, whatever the
operations are and in whatever order they come: what is published has a row, what is listed
exists, a deletion has a marked row and a task, and a row that counts as published is the
snapshot that was taken of it.
-/

namespace SimpleCdn.Deployment

structure Consistent (db : Store) : Prop where
  publicationRow : ∀ id p, db.sitePublications.find? id = some p →
    ∃ row, db.sites.find? id = some row
  frozen : ∀ id p, db.sitePublications.find? id = some p → p.site.deleting = false
  draftNodes : ∀ id row, db.sites.find? id = some row → ∀ n ∈ row.nodes,
    ∃ node, db.nodes.find? n = some node
  publicationNodes : ∀ id p, db.sitePublications.find? id = some p → ∀ n ∈ p.site.nodes,
    ∃ node, db.nodes.find? n = some node
  stateNode : ∀ n row, db.nodeStates.find? n = some row →
    ∃ node, db.nodes.find? n = some node ∧ node.status ≠ .uninstalled
  deletionRow : ∀ id t phase, db.deletionOf id = some (t, phase) →
    ∃ row, db.sites.find? id = some row ∧ row.deleting = true
  deletionTask : ∀ id t phase, db.deletionOf id = some (t, phase) →
    ∃ task, db.deploymentTasks.find? t = some task ∧ task.kind = .deleteSite ∧ task.siteID = id
  published : ∀ id row, db.sites.find? id = some row → row.published = true →
    row.deleting = false → ∃ p, db.sitePublications.find? id = some p ∧ p.site = row ∧
      p.certificateNotAfter = (db.certificates.find? id).bind CertificateRow.notAfter
  siteIssued : ∀ id row, db.sites.find? id = some row → id ∈ db.issuedIDs
  nodeIssued : ∀ n node, db.nodes.find? n = some node → n ∈ db.issuedIDs
  uninstalls : db.UninstallsClosed

/-- A task deletes one site. -/
theorem Consistent.site_of_task {db : Store} (hs : Consistent db) {k k' t : String}
    {phase phase' : SiteDeletionPhase} (h : db.deletionOf k = some (t, phase))
    (h' : db.deletionOf k' = some (t, phase')) : k = k' := by
  obtain ⟨task, htask, -, hsite⟩ := hs.deletionTask _ _ _ h
  obtain ⟨task', htask', -, hsite'⟩ := hs.deletionTask _ _ _ h'
  obtain rfl : task = task' := Option.some.inj (htask.symm.trans htask')
  exact hsite.symm.trans hsite'

theorem consistent_initial : Consistent initial.store := by
  have hnone : ∀ id, initial.store.deletionOf id = none := fun _ => rfl
  constructor
  case deletionRow => simp [hnone]
  case deletionTask => simp [hnone]
  case uninstalls => exact ⟨by simp [initial, Store.empty], by simp [initial, Store.empty]⟩
  all_goals simp [initial, Store.empty]

section Effects

variable {r : Option RenderCall} {s s' : State}

/-! ### Rebuilt states -/

/-- A state that was not there before belongs to a node the call serves. -/
theorem Saves.find?_state {call : RenderCall} {targets : List PublishTaskNode}
    (h : Saves r s s' call targets) (n : String) :
    (∃ node row, s.store.nodes.find? n = some node ∧ call.serving node = true ∧
      s'.store.nodeStates.find? n = some row ∧ NodeRebuilt call node row ∧
      (node.status = .active → call.keeps node = false → ⟨n, row.state.version⟩ ∈ targets)) ∨
    ((∀ node, s.store.nodes.find? n = some node → call.serving node = false) ∧
      s'.store.nodeStates.find? n = s.store.nodeStates.find? n) := by
  by_cases hserving : ∃ node, s.store.nodes.find? n = some node ∧ call.serving node = true
  · obtain ⟨node, hnode, hserving⟩ := hserving
    have hid : node.id = n := Table.key_of_find? hnode
    have hmem : node ∈ call.db.nodes := by
      rw [h.base.nodes]
      exact Table.mem_of_find? hnode
    obtain ⟨row, hrow, hrebuilt, htarget⟩ := h.rebuilt.serving node hmem hserving
    rw [hid] at hrow htarget
    exact .inl ⟨node, row, hnode, hserving, hrow, hrebuilt, htarget⟩
  · have hno : ∀ node, s.store.nodes.find? n = some node → call.serving node = false := by
      intro node hnode
      cases hcase : call.serving node with
      | false => rfl
      | true => exact absurd ⟨node, hnode, hcase⟩ hserving
    refine .inr ⟨hno, ?_⟩
    rw [← h.base.states]
    refine h.rebuilt.other n fun node hmem hid => ?_
    rw [h.base.nodes] at hmem
    have hfind := Table.find?_of_mem hmem
    rw [key_node, hid] at hfind
    exact hno node hfind

theorem Saves.stateNode {call : RenderCall} {targets : List PublishTaskNode}
    (h : Saves r s s' call targets) (hs : Consistent s.store) :
    ∀ n row, s'.store.nodeStates.find? n = some row →
      ∃ node, s'.store.nodes.find? n = some node ∧ node.status ≠ .uninstalled := by
  intro n row hrow
  rw [h.nodes]
  rcases h.find?_state n with ⟨node, _, hnode, hserving, -, -, -⟩ | ⟨-, hsame⟩
  · refine ⟨node, hnode, ?_⟩
    have hretired := (RenderCall.serving_iff.mp hserving).2
    intro huninstalled
    rw [huninstalled] at hretired
    cases hretired
  · rw [hsame] at hrow
    exact hs.stateNode n row hrow

/-! ### Every effect keeps the tables consistent -/

theorem TasksKept.deletionTask {db db' : Store} (h : TasksKept db db') {id t : String}
    (htask : ∃ task, db.deploymentTasks.find? t = some task ∧ task.kind = .deleteSite ∧
      task.siteID = id) :
    ∃ task, db'.deploymentTasks.find? t = some task ∧ task.kind = .deleteSite ∧
      task.siteID = id := by
  obtain ⟨task, hfind, hkind, hid⟩ := htask
  obtain ⟨task', hfind', hkind', hid'⟩ := h t task hfind
  exact ⟨task', hfind', hkind'.trans hkind, hid'.trans hid⟩

theorem uninstallsClosed_of_eq {db db' : Store} (h : db.UninstallsClosed)
    (hnodes : db'.nodes = db.nodes) (huninstalls : db'.nodeUninstallJobs = db.nodeUninstallJobs) :
    db'.UninstallsClosed := by
  refine ⟨?_, ?_⟩
  · rw [hnodes, huninstalls]
    exact h.ended
  · rw [huninstalls]
    exact h.previous

/-- What the effects on node states, phases and tasks leave alone. -/
structure SameSites (db db' : Store) : Prop where
  nodes : db'.nodes = db.nodes
  sites : db'.sites = db.sites
  publications : db'.sitePublications = db.sitePublications
  certificates : db'.certificates = db.certificates
  uninstalls : db'.nodeUninstallJobs = db.nodeUninstallJobs
  issued : db.issuedIDs ⊆ db'.issuedIDs
  tasks : TasksKept db db'

theorem SameSites.consistent {db db' : Store} (h : SameSites db db') (hs : Consistent db)
    (hstates : ∀ n row, db'.nodeStates.find? n = some row →
      ∃ node, db'.nodes.find? n = some node ∧ node.status ≠ .uninstalled)
    (hdeletions : ∀ id t phase, db'.deletionOf id = some (t, phase) →
      ∃ phase', db.deletionOf id = some (t, phase')) : Consistent db' where
  publicationRow := by rw [h.publications, h.sites]; exact hs.publicationRow
  frozen := by rw [h.publications]; exact hs.frozen
  draftNodes := by rw [h.sites, h.nodes]; exact hs.draftNodes
  publicationNodes := by rw [h.publications, h.nodes]; exact hs.publicationNodes
  stateNode := hstates
  deletionRow := by
    intro id t phase hdeletion
    obtain ⟨phase', hdeletion'⟩ := hdeletions id t phase hdeletion
    rw [h.sites]
    exact hs.deletionRow id t phase' hdeletion'
  deletionTask := by
    intro id t phase hdeletion
    obtain ⟨phase', hdeletion'⟩ := hdeletions id t phase hdeletion
    exact h.tasks.deletionTask (hs.deletionTask id t phase' hdeletion')
  published := by rw [h.sites, h.publications, h.certificates]; exact hs.published
  siteIssued := by
    intro id row hrow
    rw [h.sites] at hrow
    exact h.issued (hs.siteIssued id row hrow)
  nodeIssued := by
    intro n node hnode
    rw [h.nodes] at hnode
    exact h.issued (hs.nodeIssued n node hnode)
  uninstalls := uninstallsClosed_of_eq hs.uninstalls h.nodes h.uninstalls

theorem SameTables.consistent {db db' : Store} (h : SameTables db db') (hs : Consistent db) :
    Consistent db' := by
  refine SameSites.consistent ⟨h.nodes, h.sites, h.publications, h.certificates, h.uninstalls,
    h.issued, h.tasks⟩ hs ?_ fun id t phase hdeletion => ⟨phase, ?_⟩
  · rw [h.states, h.nodes]
    exact hs.stateNode
  · rw [← h.deletions]
    exact hdeletion

theorem Rebuilds.consistent {call : RenderCall} {targets : List PublishTaskNode}
    (h : Rebuilds r s s' call targets) (hs : Consistent s.store) : Consistent s'.store := by
  refine SameSites.consistent ⟨h.nodes, h.sites, h.publications, h.certificates, h.uninstalls,
    h.issued, h.tasks⟩ hs (h.toSaves.stateNode hs) fun id t phase hdeletion => ⟨phase, ?_⟩
  rw [← h.deletions]
  exact hdeletion

theorem Stages.consistent {siteID taskID : String} {row : Site} {now : Time} {call : RenderCall}
    {targets : List PublishTaskNode} (h : Stages r s s' siteID taskID row now call targets)
    (hs : Consistent s.store) : Consistent s'.store := by
  refine SameSites.consistent ⟨h.nodes, h.sites, h.publications, h.certificates, h.uninstalls,
    h.issued, h.tasks⟩ hs (h.toSaves.stateNode hs) fun id t phase hdeletion => ?_
  rw [h.deletions] at hdeletion
  split at hdeletion
  · next hid =>
    obtain ⟨rfl, -⟩ := Prod.mk.inj (Option.some.inj hdeletion)
    exact ⟨_, hid ▸ h.phase⟩
  · exact ⟨phase, hdeletion⟩

theorem Confirms.consistent {siteID taskID : String} (h : Confirms s s' siteID taskID)
    (hs : Consistent s.store) : Consistent s'.store := by
  refine SameSites.consistent ⟨h.nodes, h.sites, h.publications, h.certificates, h.uninstalls,
    h.issued, h.tasks⟩ hs ?_ fun id t phase hdeletion => ?_
  · rw [h.states, h.nodes]
    exact hs.stateNode
  rw [h.deletions] at hdeletion
  split at hdeletion
  · next hid =>
    obtain ⟨rfl, -⟩ := Prod.mk.inj (Option.some.inj hdeletion)
    exact ⟨_, hid ▸ h.phase⟩
  · exact ⟨phase, hdeletion⟩

theorem SiteWritten.consistent {id : String} {row' : Site}
    (h : SiteWritten s.store s'.store id row') (hs : Consistent s.store) :
    Consistent s'.store where
  publicationRow := by
    intro k p hp
    rw [h.publications] at hp
    obtain ⟨row, hrow⟩ := hs.publicationRow k p hp
    rw [h.sites]
    split
    · exact ⟨row', rfl⟩
    · exact ⟨row, hrow⟩
  frozen := by rw [h.publications]; exact hs.frozen
  draftNodes := by
    intro k row hrow n hn
    rw [h.nodes]
    rw [h.sites] at hrow
    split at hrow
    · obtain rfl := Option.some.inj hrow
      rcases h.assigned with ⟨old, hold, hsame⟩ | hexist
      · rw [hsame] at hn
        exact hs.draftNodes id old hold n hn
      · exact hexist n hn
    · exact hs.draftNodes k row hrow n hn
  publicationNodes := by rw [h.publications, h.nodes]; exact hs.publicationNodes
  stateNode := by rw [h.states, h.nodes]; exact hs.stateNode
  deletionRow := by
    intro k t phase hdeletion
    rw [h.deletions] at hdeletion
    obtain ⟨row, hrow, hdeleting⟩ := hs.deletionRow k t phase hdeletion
    rw [h.sites]
    split
    · next hk =>
      -- a live row or a new one has no deletion
      subst hk
      rcases h.origin with ⟨hnone, -⟩ | ⟨old, hold, hlive⟩
      · rw [hnone] at hrow
        cases hrow
      · rw [hold] at hrow
        obtain rfl := Option.some.inj hrow
        rw [hlive] at hdeleting
        cases hdeleting
    · exact ⟨row, hrow, hdeleting⟩
  deletionTask := by
    intro k t phase hdeletion
    rw [h.deletions] at hdeletion
    exact h.tasks.deletionTask (hs.deletionTask k t phase hdeletion)
  published := by
    intro k row hrow hpublished hlive
    rw [h.sites] at hrow
    split at hrow
    · obtain rfl := Option.some.inj hrow
      rw [h.published] at hpublished
      cases hpublished
    · next hk =>
      rw [h.publications, h.certificates k hk]
      exact hs.published k row hrow hpublished hlive
  siteIssued := by
    intro k row hrow
    rw [h.sites] at hrow
    split at hrow
    · next hk =>
      subst hk
      rcases h.origin with ⟨-, -, hissued⟩ | ⟨old, hold, -⟩
      · exact hissued
      · exact h.issued (hs.siteIssued k old hold)
    · exact h.issued (hs.siteIssued k row hrow)
  nodeIssued := by
    intro n node hnode
    rw [h.nodes] at hnode
    exact h.issued (hs.nodeIssued n node hnode)
  uninstalls := uninstallsClosed_of_eq hs.uninstalls h.nodes h.uninstalls

theorem Publishes.consistent {siteID : String} {row : Site} {now : Time} {call : RenderCall}
    {targets : List PublishTaskNode} (h : Publishes r s s' siteID row now call targets)
    (hs : Consistent s.store) : Consistent s'.store where
  publicationRow := by
    intro k p hp
    rw [h.sites]
    rw [h.publications] at hp
    split
    · exact ⟨_, rfl⟩
    · next hk =>
      rw [if_neg hk] at hp
      exact hs.publicationRow k p hp
  frozen := by
    intro k p hp
    rw [h.publications] at hp
    split at hp
    · obtain rfl := Option.some.inj hp
      exact h.live
    · exact hs.frozen k p hp
  draftNodes := by
    intro k row' hrow n hn
    rw [h.nodes]
    rw [h.sites] at hrow
    split at hrow
    · obtain rfl := Option.some.inj hrow
      exact hs.draftNodes siteID row h.found n hn
    · exact hs.draftNodes k row' hrow n hn
  publicationNodes := by
    intro k p hp n hn
    rw [h.nodes]
    rw [h.publications] at hp
    split at hp
    · obtain rfl := Option.some.inj hp
      exact hs.draftNodes siteID row h.found n hn
    · exact hs.publicationNodes k p hp n hn
  stateNode := h.toSaves.stateNode hs
  deletionRow := by
    intro k t phase hdeletion
    rw [h.deletions] at hdeletion
    obtain ⟨old, hold, hdeleting⟩ := hs.deletionRow k t phase hdeletion
    rw [h.sites]
    split
    · next hk =>
      subst hk
      rw [h.found] at hold
      obtain rfl := Option.some.inj hold
      rw [h.live] at hdeleting
      cases hdeleting
    · exact ⟨old, hold, hdeleting⟩
  deletionTask := by
    intro k t phase hdeletion
    rw [h.deletions] at hdeletion
    exact h.tasks.deletionTask (hs.deletionTask k t phase hdeletion)
  published := by
    intro k row' hrow hpublished hlive
    rw [h.sites] at hrow
    rw [h.publications, h.certificates]
    split at hrow
    · next hk =>
      -- the row is now the snapshot itself
      obtain rfl := Option.some.inj hrow
      rw [if_pos hk]
      have hid : row.id = siteID := Table.key_of_find? h.found
      refine ⟨_, rfl, rfl, ?_⟩
      rw [hk, Store.snapshot, hid]
    · next hk =>
      rw [if_neg hk]
      exact hs.published k row' hrow hpublished hlive
  siteIssued := by
    intro k row' hrow
    rw [h.sites] at hrow
    split at hrow
    · next hk =>
      rw [hk]
      exact h.issued (hs.siteIssued siteID row h.found)
    · exact h.issued (hs.siteIssued k row' hrow)
  nodeIssued := by
    intro n node hnode
    rw [h.nodes] at hnode
    exact h.issued (hs.nodeIssued n node hnode)
  uninstalls := uninstallsClosed_of_eq hs.uninstalls h.nodes h.uninstalls

theorem Begins.consistent {siteID taskID : String} {row : Site}
    (h : Begins s s' siteID taskID row) (hs : Consistent s.store) : Consistent s'.store := by
  obtain ⟨now, hsites⟩ := h.sites
  constructor
  case publicationRow =>
    intro k p hp
    rw [h.publications] at hp
    obtain ⟨old, hold⟩ := hs.publicationRow k p hp
    rw [hsites]
    split
    · exact ⟨_, rfl⟩
    · exact ⟨old, hold⟩
  case frozen =>
    rw [h.publications]
    exact hs.frozen
  case draftNodes =>
    intro k row' hrow n hn
    rw [h.nodes]
    rw [hsites] at hrow
    split at hrow
    · obtain rfl := Option.some.inj hrow
      exact hs.draftNodes siteID row h.found n hn
    · exact hs.draftNodes k row' hrow n hn
  case publicationNodes =>
    rw [h.publications, h.nodes]
    exact hs.publicationNodes
  case stateNode =>
    rw [h.states, h.nodes]
    exact hs.stateNode
  case deletionRow =>
    intro k t phase hdeletion
    rw [h.deletions] at hdeletion
    rw [hsites]
    split
    · exact ⟨_, rfl, rfl⟩
    · next hk =>
      rw [if_neg hk] at hdeletion
      exact hs.deletionRow k t phase hdeletion
  case deletionTask =>
    intro k t phase hdeletion
    rw [h.deletions] at hdeletion
    split at hdeletion
    · next hk =>
      obtain ⟨rfl, -⟩ := Prod.mk.inj (Option.some.inj hdeletion)
      rw [hk]
      exact h.task
    · exact h.tasks.deletionTask (hs.deletionTask k t phase hdeletion)
  case published =>
    intro k row' hrow hpublished hlive
    rw [hsites] at hrow
    rw [h.publications, h.certificates]
    split at hrow
    · obtain rfl := Option.some.inj hrow
      cases hlive
    · exact hs.published k row' hrow hpublished hlive
  case siteIssued =>
    intro k row' hrow
    rw [hsites] at hrow
    split at hrow
    · next hk =>
      rw [hk]
      exact h.issued (hs.siteIssued siteID row h.found)
    · exact h.issued (hs.siteIssued k row' hrow)
  case nodeIssued =>
    intro n node hnode
    rw [h.nodes] at hnode
    exact h.issued (hs.nodeIssued n node hnode)
  case uninstalls => exact uninstallsClosed_of_eq hs.uninstalls h.nodes h.uninstalls

theorem Removes.consistent {siteID taskID : String} (h : Removes s s' siteID taskID)
    (hs : Consistent s.store) : Consistent s'.store where
  publicationRow := by
    intro k p hp
    rw [h.publications] at hp
    rw [h.sites]
    split at hp
    · cases hp
    · next hk =>
      rw [if_neg hk]
      exact hs.publicationRow k p hp
  frozen := by
    intro k p hp
    rw [h.publications] at hp
    split at hp
    · cases hp
    · exact hs.frozen k p hp
  draftNodes := by
    intro k row hrow n hn
    rw [h.nodes]
    rw [h.sites] at hrow
    split at hrow
    · cases hrow
    · exact hs.draftNodes k row hrow n hn
  publicationNodes := by
    intro k p hp n hn
    rw [h.nodes]
    rw [h.publications] at hp
    split at hp
    · cases hp
    · exact hs.publicationNodes k p hp n hn
  stateNode := by rw [h.states, h.nodes]; exact hs.stateNode
  deletionRow := by
    intro k t phase hdeletion
    rw [h.deletions] at hdeletion
    rw [h.sites]
    split at hdeletion
    · cases hdeletion
    · next hk =>
      rw [if_neg hk]
      exact hs.deletionRow k t phase hdeletion
  deletionTask := by
    intro k t phase hdeletion
    rw [h.deletions] at hdeletion
    split at hdeletion
    · cases hdeletion
    · exact h.tasks.deletionTask (hs.deletionTask k t phase hdeletion)
  published := by
    intro k row hrow hpublished hlive
    rw [h.sites] at hrow
    split at hrow
    · cases hrow
    · next hk =>
      rw [h.publications, h.certificates, if_neg hk, if_neg hk]
      exact hs.published k row hrow hpublished hlive
  siteIssued := by
    intro k row hrow
    rw [h.sites] at hrow
    split at hrow
    · cases hrow
    · exact h.issued (hs.siteIssued k row hrow)
  nodeIssued := by
    intro n node hnode
    rw [h.nodes] at hnode
    exact h.issued (hs.nodeIssued n node hnode)
  uninstalls := uninstallsClosed_of_eq hs.uninstalls h.nodes h.uninstalls

/-- A node that is listed somewhere is not lost. -/
theorem nodeEffect_listed (h : Store.NodeEffect s.store s'.store) {n : String}
    (hlisted : ¬ s.store.Unlisted n) (hnode : ∃ node, s.store.nodes.find? n = some node) :
    ∃ node, s'.store.nodes.find? n = some node := by
  by_contra hnone
  have hgone : s'.store.nodes.find? n = none := by
    cases hcase : s'.store.nodes.find? n with
    | none => rfl
    | some node => exact absurd ⟨node, hcase⟩ hnone
  exact hlisted (h.gone n hnode hgone).1

theorem nodeEffect_consistent (h : Store.NodeEffect s.store s'.store) (hs : Consistent s.store) :
    Consistent s'.store where
  publicationRow := by rw [h.publications, h.sites]; exact hs.publicationRow
  frozen := by rw [h.publications]; exact hs.frozen
  draftNodes := by
    intro k row hrow n hn
    rw [h.sites] at hrow
    refine nodeEffect_listed h ?_ (hs.draftNodes k row hrow n hn)
    intro hunlisted
    exact hunlisted.1 row (Table.mem_of_find? hrow) hn
  publicationNodes := by
    intro k p hp n hn
    rw [h.publications] at hp
    refine nodeEffect_listed h ?_ (hs.publicationNodes k p hp n hn)
    intro hunlisted
    exact hunlisted.2 p (Table.mem_of_find? hp) hn
  stateNode := by
    intro n row hrow
    rcases h.state n with hsame | ⟨hnone, -⟩
    · have hold := hrow
      rw [hsame] at hold
      obtain ⟨node, hnode, hnot⟩ := hs.stateNode n row hold
      cases hnode' : s'.store.nodes.find? n with
      | none =>
        rw [(h.gone n ⟨node, hnode⟩ hnode').2] at hrow
        cases hrow
      | some node' =>
        refine ⟨node', rfl, fun huninstalled => ?_⟩
        rcases h.uninstalled n node' hnode' huninstalled with hnone | ⟨old, hold', hwas⟩
        · rw [hnone] at hrow
          cases hrow
        · obtain rfl : node = old := Option.some.inj (hnode.symm.trans hold')
          exact hnot hwas
    · rw [hnone] at hrow
      cases hrow
  deletionRow := by
    intro k t phase hdeletion
    rw [Store.deletionOf, h.deletions] at hdeletion
    rw [h.sites]
    exact hs.deletionRow k t phase hdeletion
  deletionTask := by
    intro k t phase hdeletion
    rw [Store.deletionOf, h.deletions] at hdeletion
    obtain ⟨task, hfind, hkind, hid⟩ := hs.deletionTask k t phase hdeletion
    obtain ⟨task', hfind'⟩ := h.tasks.kept t task hfind
    obtain ⟨task₀, hfind₀, hmove⟩ := h.tasks.move t task' hfind'
    obtain rfl : task = task₀ := Option.some.inj (hfind.symm.trans hfind₀)
    exact ⟨task', hfind', hmove.kind.trans hkind, hmove.siteID.trans hid⟩
  published := by rw [h.sites, h.publications, h.certificates]; exact hs.published
  siteIssued := by
    intro k row hrow
    rw [h.sites] at hrow
    exact h.issued (hs.siteIssued k row hrow)
  nodeIssued := by
    intro n node' hnode'
    rcases h.node n node' hnode' with ⟨node, hnode, -⟩ | ⟨-, -, hissued, -⟩
    · exact h.issued (hs.nodeIssued n node hnode)
    · exact hissued
  uninstalls := h.closed

theorem Effect.consistent (h : Effect r s s') (hs : Consistent s.store) : Consistent s'.store := by
  cases h with
  | tables tables history => exact tables.consistent hs
  | site id row' written history => exact written.consistent hs
  | publish siteID row now call targets publishes => exact publishes.consistent hs
  | rebuild call targets rebuilds => exact rebuilds.consistent hs
  | begin siteID taskID row begins => exact begins.consistent hs
  | stage siteID taskID row now call targets stages => exact stages.consistent hs
  | confirm siteID taskID confirms history => exact confirms.consistent hs
  | remove siteID taskID removes history => exact removes.consistent hs
  | node effect history => exact nodeEffect_consistent effect hs

end Effects

end SimpleCdn.Deployment
