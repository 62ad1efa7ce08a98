import SimpleCdn.Store.Confirmation
import SimpleCdn.Store.NodeOps

/-!
# What node operations write

`NodeEffect` states everything the rest of the control plane has to know about a node operation:
sites, publications, certificates and deletion jobs stay as they are, applied versions only grow,
an uninstalled node stays uninstalled, only a node that is uninstalled or deleted loses its
state, and targets and tasks only settle.

That an uninstalled node stays uninstalled rests on `UninstallsClosed`: its workflow is over, and
no workflow would bring a node back to that status.
-/

namespace SimpleCdn

namespace Store

structure UninstallsClosed (db : Store) : Prop where
  ended : ∀ n node job, db.nodes.find? n = some node → node.status = .uninstalled →
    db.nodeUninstallJobs.find? n = some job → job.status = .succeeded ∨ job.status = .forced
  previous : ∀ job ∈ db.nodeUninstallJobs, job.previousStatus ≠ .uninstalled

/-- What stays of a node's row. -/
structure NodeKept (node node' : Node) : Prop where
  applied : node.appliedVersion ≤ node'.appliedVersion
  uninstalled : node.status = .uninstalled → node'.status = .uninstalled

/-- No draft and no publication lists the node. -/
def Unlisted (db : Store) (n : String) : Prop :=
  (∀ site ∈ db.sites, n ∉ site.nodes) ∧ ∀ publication ∈ db.sitePublications,
    n ∉ publication.site.nodes

structure NodeEffect (db db' : Store) : Prop where
  node : ∀ n node', db'.nodes.find? n = some node' →
    (∃ node, db.nodes.find? n = some node ∧ NodeKept node node') ∨
    (db.nodes.find? n = none ∧ n ∉ db.issuedIDs ∧ n ∈ db'.issuedIDs ∧ node'.status = .pending)
  gone : ∀ n, (∃ node, db.nodes.find? n = some node) → db'.nodes.find? n = none →
    db.Unlisted n ∧ db'.nodeStates.find? n = none
  state : ∀ n, db'.nodeStates.find? n = db.nodeStates.find? n ∨
    (db'.nodeStates.find? n = none ∧
      ∀ node', db'.nodes.find? n = some node' → node'.status = .uninstalled)
  uninstalled : ∀ n node', db'.nodes.find? n = some node' → node'.status = .uninstalled →
    db'.nodeStates.find? n = none ∨
      ∃ node, db.nodes.find? n = some node ∧ node.status = .uninstalled
  targets : TargetsSettle db db'
  targetsKept : ∀ k row, db.publishTaskNodes.find? k = some row →
    (∃ row', db'.publishTaskNodes.find? k = some row') ∨ db'.nodes.find? row.nodeID = none
  tasks : PublishesSettle db db'
  closed : UninstallsClosed db'
  issued : db.issuedIDs ⊆ db'.issuedIDs
  sites : db'.sites = db.sites
  publications : db'.sitePublications = db.sitePublications
  certificates : db'.certificates = db.certificates
  deletions : db'.siteDeletionJobs = db.siteDeletionJobs

/-- The tables that most node operations leave alone. -/
structure NodeFrame (db db' : Store) : Prop where
  sites : db'.sites = db.sites
  publications : db'.sitePublications = db.sitePublications
  certificates : db'.certificates = db.certificates
  deletions : db'.siteDeletionJobs = db.siteDeletionJobs
  states : db'.nodeStates = db.nodeStates
  tasks : db'.deploymentTasks = db.deploymentTasks
  targets : db'.publishTaskNodes = db.publishTaskNodes
  issued : db'.issuedIDs = db.issuedIDs

section

variable {db db' : Store} {n nodeID : String} {now : Time}

theorem NodeKept.refl (node : Node) : NodeKept node node :=
  ⟨le_rfl, id⟩

/-! ### Updating one row -/

theorem find?_updateNode (db : Store) {f : Node → Node} (hf : ∀ node, key (f node) = key node)
    (n : String) :
    (db.updateNode nodeID f hf).nodes.find? n =
      if n = nodeID then (db.nodes.find? n).map f else db.nodes.find? n := by
  have h := Table.find?_update_key (T := db.nodes) (p := fun _ => true) hf nodeID n
  simpa [updateNode] using h

theorem find?_updateUninstallJob (db : Store) {f : NodeUninstallJob → NodeUninstallJob}
    (hf : ∀ job, key (f job) = key job) (n : String) :
    (db.updateUninstallJob nodeID f hf).nodeUninstallJobs.find? n =
      if n = nodeID then (db.nodeUninstallJobs.find? n).map f
      else db.nodeUninstallJobs.find? n := by
  have h := Table.find?_update_key (T := db.nodeUninstallJobs) (p := fun _ => true) hf nodeID n
  simpa [updateUninstallJob] using h

/-- The rows of the nodes before and after an operation on one of them. -/
def NodeRowMoves (db db' : Store) (nodeID : String) (f : Node → Node) : Prop :=
  ∀ n, db'.nodes.find? n = if n = nodeID then (db.nodes.find? n).map f else db.nodes.find? n

theorem NodeRowMoves.refl (db : Store) (nodeID : String) : NodeRowMoves db db nodeID id := by
  intro n
  simp

theorem NodeRowMoves.node {f : Node → Node} (h : NodeRowMoves db db' nodeID f)
    (hkept : ∀ node, db.nodes.find? nodeID = some node → NodeKept node (f node)) {node' : Node}
    (hnode' : db'.nodes.find? n = some node') :
    ∃ node, db.nodes.find? n = some node ∧ NodeKept node node' := by
  rw [h] at hnode'
  split at hnode'
  · next heq =>
    subst heq
    obtain ⟨node, hnode, rfl⟩ := Option.map_eq_some_iff.mp hnode'
    exact ⟨node, hnode, hkept node hnode⟩
  · exact ⟨node', hnode', .refl node'⟩

theorem NodeRowMoves.not_gone {f : Node → Node} (h : NodeRowMoves db db' nodeID f) {node : Node}
    (hnode : db.nodes.find? n = some node) : db'.nodes.find? n ≠ none := by
  rw [h, hnode]
  split
  · nofun
  · nofun

/-- An operation on the row of one node. -/
theorem NodeFrame.effect {f : Node → Node} (hframe : NodeFrame db db')
    (hmoves : NodeRowMoves db db' nodeID f)
    (hkept : ∀ node, db.nodes.find? nodeID = some node → NodeKept node (f node))
    (hstatus : ∀ node, db.nodes.find? nodeID = some node → (f node).status = .uninstalled →
      node.status = .uninstalled)
    (hclosed : UninstallsClosed db') : NodeEffect db db' where
  node := fun n node' hnode' => .inl (hmoves.node hkept hnode')
  gone := by
    rintro n ⟨node, hnode⟩ hnone
    exact absurd hnone (hmoves.not_gone hnode)
  state := fun n => .inl (by rw [hframe.states])
  uninstalled := by
    intro n node' hnode' huninstalled
    right
    rw [hmoves] at hnode'
    split at hnode'
    · next heq =>
      subst heq
      obtain ⟨node, hnode, rfl⟩ := Option.map_eq_some_iff.mp hnode'
      exact ⟨node, hnode, hstatus node hnode huninstalled⟩
    · exact ⟨node', hnode', huninstalled⟩
  targets := .of_eq hframe.targets
  targetsKept := by
    intro k row hrow
    rw [← hframe.targets] at hrow
    exact .inl ⟨row, hrow⟩
  tasks := .of_eq hframe.tasks
  closed := hclosed
  issued := by rw [hframe.issued]; exact List.Subset.refl _
  sites := hframe.sites
  publications := hframe.publications
  certificates := hframe.certificates
  deletions := hframe.deletions

/-- The workflows stay closed when neither an uninstalled status nor an open workflow appears. -/
theorem UninstallsClosed.moves {f : Node → Node} (h : UninstallsClosed db)
    (hmoves : NodeRowMoves db db' nodeID f)
    (hstatus : ∀ node, db.nodes.find? nodeID = some node → (f node).status = .uninstalled →
      node.status = .uninstalled)
    (hjobs : ∀ n job', db'.nodeUninstallJobs.find? n = some job' →
      job'.previousStatus ≠ .uninstalled ∧
      ((∃ job, db.nodeUninstallJobs.find? n = some job ∧ job'.status = job.status) ∨
        ∀ node', db'.nodes.find? n = some node' → node'.status ≠ .uninstalled)) :
    UninstallsClosed db' where
  ended := by
    intro n node' job' hnode' huninstalled hjob'
    rcases (hjobs n job' hjob').2 with ⟨job, hjob, hsame⟩ | hother
    · rw [hsame]
      rw [hmoves] at hnode'
      split at hnode'
      · next heq =>
        subst heq
        obtain ⟨node, hnode, rfl⟩ := Option.map_eq_some_iff.mp hnode'
        exact h.ended n node job hnode (hstatus node hnode huninstalled) hjob
      · exact h.ended n node' job hnode' huninstalled hjob
    · exact absurd huninstalled (hother node' hnode')
  previous := by
    intro job' hjob'
    exact (hjobs _ job' (Table.find?_of_mem hjob')).1

/-- The workflows when none of their rows changes. -/
theorem UninstallsClosed.same_jobs {f : Node → Node} (h : UninstallsClosed db)
    (hmoves : NodeRowMoves db db' nodeID f)
    (hstatus : ∀ node, db.nodes.find? nodeID = some node → (f node).status = .uninstalled →
      node.status = .uninstalled)
    (hjobs : db'.nodeUninstallJobs = db.nodeUninstallJobs) : UninstallsClosed db' := by
  refine h.moves hmoves hstatus fun n job hjob => ?_
  rw [hjobs] at hjob
  exact ⟨h.previous job (Table.mem_of_find? hjob), .inl ⟨job, hjob, rfl⟩⟩

/-- An operation that sets fields of one node and does not look at workflows. -/
theorem updateNode_effect {f : Node → Node} {hf : ∀ node, key (f node) = key node}
    (hclosed : UninstallsClosed db)
    (hkept : ∀ node, db.nodes.find? nodeID = some node → NodeKept node (f node))
    (hstatus : ∀ node, db.nodes.find? nodeID = some node → (f node).status = .uninstalled →
      node.status = .uninstalled) : NodeEffect db (db.updateNode nodeID f hf) := by
  have hmoves : NodeRowMoves db (db.updateNode nodeID f hf) nodeID f := find?_updateNode db hf
  exact NodeFrame.effect ⟨rfl, rfl, rfl, rfl, rfl, rfl, rfl, rfl⟩ hmoves hkept hstatus
    (hclosed.same_jobs hmoves hstatus rfl)

/-- An operation that changes no node. -/
theorem NodeFrame.effect_of_nodes_eq (hframe : NodeFrame db db') (hnodes : db'.nodes = db.nodes)
    (hclosed : UninstallsClosed db') : NodeEffect db db' := by
  have hmoves : NodeRowMoves db db' "" id := by
    intro n
    rw [hnodes]
    simp
  exact hframe.effect hmoves (fun node _ => .refl node) (fun _ _ => id) hclosed

theorem NodeEffect.refl (hclosed : UninstallsClosed db) : NodeEffect db db :=
  NodeFrame.effect_of_nodes_eq ⟨rfl, rfl, rfl, rfl, rfl, rfl, rfl, rfl⟩ rfl hclosed

/-- An operation on the workflow of a node that is not uninstalled. -/
theorem updateUninstallJob_closed {f : NodeUninstallJob → NodeUninstallJob}
    (hf : ∀ job, key (f job) = key job) (hclosed : UninstallsClosed db)
    (hprevious : ∀ job, (f job).previousStatus = job.previousStatus)
    (hnode : ∀ node, db.nodes.find? nodeID = some node → node.status ≠ .uninstalled) :
    UninstallsClosed (db.updateUninstallJob nodeID f hf) := by
  refine hclosed.moves (NodeRowMoves.refl db nodeID) (fun _ _ => id) fun n job' hjob' => ?_
  rw [find?_updateUninstallJob] at hjob'
  split at hjob'
  · next heq =>
    subst heq
    obtain ⟨job, hjob, rfl⟩ := Option.map_eq_some_iff.mp hjob'
    refine ⟨?_, .inr hnode⟩
    rw [hprevious]
    exact hclosed.previous job (Table.mem_of_find? hjob)
  · exact ⟨hclosed.previous job' (Table.mem_of_find? hjob'), .inl ⟨job', hjob', rfl⟩⟩

theorem updateUninstallJob_effect {f : NodeUninstallJob → NodeUninstallJob}
    {hf : ∀ job, key (f job) = key job}
    (hclosed : UninstallsClosed (db.updateUninstallJob nodeID f hf)) :
    NodeEffect db (db.updateUninstallJob nodeID f hf) :=
  NodeFrame.effect_of_nodes_eq ⟨rfl, rfl, rfl, rfl, rfl, rfl, rfl, rfl⟩ rfl hclosed

/-- A node whose workflow is still open is not uninstalled. -/
theorem UninstallsClosed.not_uninstalled (h : UninstallsClosed db) {job : NodeUninstallJob}
    (hjob : db.nodeUninstallJobs.find? nodeID = some job) (hsucceeded : job.status ≠ .succeeded)
    (hforced : job.status ≠ .forced) :
    ∀ node, db.nodes.find? nodeID = some node → node.status ≠ .uninstalled := by
  intro node hnode huninstalled
  rcases h.ended nodeID node job hnode huninstalled hjob with hover | hover
  · exact hsucceeded hover
  · exact hforced hover

theorem getNode_eq_ok {node : Node} :
    db.getNode nodeID = .ok node ↔ db.nodes.find? nodeID = some node := by
  simp [getNode]

/-! ### Creating and setting up a node -/

theorem createNode_effect {id name publicIPv4 : String} {node : Node}
    (hclosed : UninstallsClosed db)
    (h : db.createNode id name publicIPv4 now = .ok (node, db')) : NodeEffect db db' := by
  simp only [createNode, bind_eq_ok, require_eq_ok, orError_eq_ok, pure_eq_ok, exists_const,
    Prod.mk.injEq] at h
  obtain ⟨-, db₁, hnew, -, nodes, hinsert, rfl, rfl⟩ := h
  obtain ⟨hfresh, rfl⟩ := newID_eq_ok.mp hnew
  have hfind := Table.find?_of_insert? hinsert
  have hnone := (Table.insert?_eq_some_iff.mp hinsert).1
  constructor
  case node =>
    intro n node' hnode'
    rw [hfind] at hnode'
    split at hnode'
    · next heq =>
      obtain rfl := Option.some.inj hnode'
      right
      rw [← heq]
      exact ⟨hnone, hfresh, List.mem_cons_self, rfl⟩
    · exact .inl ⟨node', hnode', .refl node'⟩
  case gone =>
    rintro n ⟨node', hnode'⟩ hnone'
    rw [hfind] at hnone'
    split at hnone'
    · cases hnone'
    · rw [hnode'] at hnone'
      cases hnone'
  case closed =>
    refine ⟨fun n node' job hnode' huninstalled hjob => ?_, hclosed.previous⟩
    rw [hfind] at hnode'
    split at hnode'
    · obtain rfl := Option.some.inj hnode'
      cases huninstalled
    · exact hclosed.ended n node' job hnode' huninstalled hjob
  case state => exact fun n => .inl rfl
  case uninstalled =>
    intro n node' hnode' huninstalled
    rw [hfind] at hnode'
    split at hnode'
    · obtain rfl := Option.some.inj hnode'
      cases huninstalled
    · exact .inr ⟨node', hnode', huninstalled⟩
  case targets => exact .of_eq rfl
  case targetsKept => exact fun k row hrow => .inl ⟨row, hrow⟩
  case tasks => exact .of_eq rfl
  case issued => exact List.subset_cons_self _ _
  case sites => rfl
  case publications => rfl
  case certificates => rfl
  case deletions => rfl

theorem consumeEnrollmentToken_effect {token nodeID : String} (hclosed : UninstallsClosed db)
    (h : db.consumeEnrollmentToken token now = .ok (nodeID, db')) : NodeEffect db db' := by
  simp only [consumeEnrollmentToken, bind_eq_ok, pure_eq_ok, Prod.mk.injEq] at h
  obtain ⟨row, -, node, -, -, -, -, rfl⟩ := h
  exact NodeFrame.effect_of_nodes_eq ⟨rfl, rfl, rfl, rfl, rfl, rfl, rfl, rfl⟩ rfl
    ⟨hclosed.ended, hclosed.previous⟩

theorem setNodeCertificate_effect {fingerprint : String} (hclosed : UninstallsClosed db)
    (h : db.setNodeCertificate nodeID fingerprint now = .ok db') : NodeEffect db db' := by
  simp only [setNodeCertificate, bind_eq_ok, pure_eq_ok] at h
  obtain ⟨node, -, -, -, rfl⟩ := h
  exact updateNode_effect hclosed (fun node _ => ⟨le_rfl, id⟩) fun node _ => id

theorem setNodeStatus_effect {status : NodeStatus} (hclosed : UninstallsClosed db)
    (h : db.setNodeStatus nodeID status now = .ok db') : NodeEffect db db' := by
  simp only [setNodeStatus, bind_eq_ok, require_eq_ok, getNode_eq_ok, exists_const] at h
  obtain ⟨hvalid, node, hnode, ⟨-, hnot⟩, -, h⟩ := h
  have hkept : ∀ f : Node → Node, (∀ node, (f node).appliedVersion = node.appliedVersion) →
      ∀ node', db.nodes.find? nodeID = some node' → NodeKept node' (f node') := by
    intro f hf node' hnode'
    obtain rfl : node = node' := Option.some.inj (hnode.symm.trans hnode')
    exact ⟨(hf node).ge, fun huninstalled => absurd huninstalled hnot⟩
  split at h
  · obtain rfl := pure_eq_ok.mp h
    have hmoves : NodeRowMoves db (db.updateNode nodeID fun node =>
        { node with
          status := .revoked, monitorAutoPaused := false, certFingerprint := none,
          activeUpgradeID := "", updatedAt := now }) nodeID _ :=
      find?_updateNode db (by intro _; rfl)
    refine NodeFrame.effect ⟨rfl, rfl, rfl, rfl, rfl, rfl, rfl, rfl⟩ hmoves
      (hkept _ fun _ => rfl) (fun _ _ huninstalled => by cases huninstalled) ?_
    refine hclosed.moves hmoves (fun _ _ huninstalled => by cases huninstalled)
      fun n job' hjob' => ?_
    simp only [withdrawAuthorization, Table.find?_update] at hjob'
    obtain ⟨job, hjob, rfl⟩ := Option.map_eq_some_iff.mp hjob'
    have hprevious := hclosed.previous job (Table.mem_of_find? hjob)
    refine ⟨?_, .inl ⟨job, hjob, ?_⟩⟩
    · split
      · rintro ⟨⟩
      · exact hprevious
    · split
      · rfl
      · rfl
  · obtain rfl := pure_eq_ok.mp h
    refine updateNode_effect hclosed (hkept _ fun _ => rfl) fun node' hnode' huninstalled => ?_
    -- the new status is none of those an uninstall sets
    rw [show status = NodeStatus.uninstalled from huninstalled] at hvalid
    simp at hvalid

theorem recordMonitoringRound_effect {consecutiveAbnormal : Nat} (hclosed : UninstallsClosed db)
    (h : db.recordMonitoringRound nodeID consecutiveAbnormal now = .ok db') :
    NodeEffect db db' := by
  simp only [recordMonitoringRound, bind_eq_ok, pure_eq_ok] at h
  obtain ⟨-, -, rfl⟩ := h
  have hstatus : ∀ node : Node,
      (monitoredStatus node.status node.monitorAutoPaused consecutiveAbnormal).1 = .uninstalled ↔
        node.status = .uninstalled := by
    intro node
    unfold monitoredStatus
    split
    · next hactive => simp [hactive.2]
    · split
      · next hdraining => simp [hdraining.2.2]
      · rfl
  refine updateNode_effect hclosed (fun node _ => ⟨le_rfl, (hstatus node).mpr⟩) ?_
  exact fun node _ => (hstatus node).mp

/-! ### Heartbeats -/

/-- The targets after a report and the node's new applied version. -/
theorem recordReport_settle {f : Node → Node} (hf : ∀ node, key (f node) = key node)
    {appliedVersion : Nat} {report : Option ApplyReport} {node : Node} {db₁ : Store}
    (h : db.recordReport nodeID report now = .ok db₁)
    (hnode : db.nodes.find? nodeID = some node)
    (hreport : reportApplied appliedVersion report = true)
    (happlied : appliedVersion ≤ (f node).appliedVersion) :
    (TargetsSettle db (db₁.updateNode nodeID f hf) ∧
      TargetsKept db (db₁.updateNode nodeID f hf)) ∧
    ∃ rows, db₁ = { db with publishTaskNodes := rows } := by
  cases report with
  | none =>
    obtain rfl := Except.ok.inj h
    exact ⟨⟨.of_eq rfl, .of_eq rfl⟩, _, rfl⟩
  | some report =>
    simp only [recordReport, recordPublishApply, bind_eq_ok, pure_eq_ok] at h
    obtain ⟨-, -, rfl⟩ := h
    refine ⟨settle_update ?_ rfl ?_ (fun _ => rfl) ?_, _, rfl⟩
    · exact fun _ => rfl
    · intro row hsel
      simp only [reportSettles, Bool.and_eq_true, decide_eq_true_eq] at hsel
      exact hsel.1.2
    · intro row hsel hsucceeded
      simp only [reportSettles, Bool.and_eq_true, decide_eq_true_eq] at hsel
      obtain ⟨⟨⟨hid, hversion⟩, -⟩, -⟩ := hsel
      have hstatus : report.status = .succeeded := by
        have hreported : reportedStatus report.status = .succeeded := hsucceeded
        cases hcase : report.status with
        | succeeded => rfl
        | failed =>
          rw [hcase] at hreported
          cases hreported
      simp only [reportApplied, hstatus, reduceCtorEq, decide_false, Bool.false_or,
        decide_eq_true_eq] at hreport
      refine ⟨f node, ?_, ?_⟩
      · rw [find?_updateNode, if_pos hid, hid]
        exact congrArg (Option.map f) hnode
      · exact hversion.trans (hreport.trans happlied)

theorem heartbeat_effect {lastError agentVersion agentSHA256 activeUpgradeID : String}
    {appliedVersion : Nat} {report : Option ApplyReport} (hclosed : UninstallsClosed db)
    (hreport : reportApplied appliedVersion report = true)
    (h : db.heartbeat nodeID appliedVersion lastError report agentVersion agentSHA256
      activeUpgradeID now = .ok db') : NodeEffect db db' := by
  simp only [heartbeat, bind_eq_ok, pure_eq_ok, getNode_eq_ok] at h
  obtain ⟨db₁, hrecord, node, hnode, rfl⟩ := h
  have hnode₀ : db.nodes.find? nodeID = some node := by
    cases report with
    | none =>
      obtain rfl := Except.ok.inj hrecord
      exact hnode
    | some report =>
      simp only [recordReport, recordPublishApply, bind_eq_ok, pure_eq_ok] at hrecord
      obtain ⟨-, -, rfl⟩ := hrecord
      exact hnode
  set f : Node → Node := fun node =>
    { node with
      status := if node.status = .pending then .active else node.status
      lastHeartbeatAt := some now
      appliedVersion := max node.appliedVersion appliedVersion
      agentVersion := agentVersion
      agentSHA256 := if agentSHA256 = "" then node.agentSHA256 else agentSHA256
      activeUpgradeID := activeUpgradeID
      lastError := lastError
      updatedAt := now } with hf
  obtain ⟨⟨hsettle, hkept⟩, rows, rfl⟩ :=
    recordReport_settle (f := f) (fun _ => rfl) hrecord hnode₀ hreport (le_max_right _ _)
  set db₂ := Store.updateNode { db with publishTaskNodes := rows } nodeID f with hdb₂
  have hreconcile := reconcilePublishTasks_reconciles db₂ now
  have hstatus : ∀ node, (f node).status = .uninstalled ↔ node.status = .uninstalled := by
    intro node
    rw [hf]
    dsimp only
    split
    · next hpending => simp [hpending]
    · rfl
  have hupdate : NodeEffect db (db.updateNode nodeID f) :=
    updateNode_effect hclosed (fun node _ => ⟨le_max_left _ _, (hstatus node).mpr⟩)
      (fun node _ => (hstatus node).mp)
  generalize hdb₃ : db₂.reconcilePublishTasks now = db₃ at hreconcile
  obtain ⟨tasks, rows₃, hframe⟩ := hreconcile.frame
  have htasks : PublishesSettle db db₂ := .of_eq rfl
  have hadvance : NodesAdvance db₂ db₃ := .of_eq hreconcile.nodes_eq
  have hsettled := hsettle.trans hreconcile.targets hadvance
  have htaskMoves := htasks.trans hreconcile.tasks hreconcile.targets
  have hkept' := hkept.trans hreconcile.kept
  subst hframe
  exact { node := hupdate.node
          gone := hupdate.gone
          state := hupdate.state
          uninstalled := hupdate.uninstalled
          targets := hsettled
          targetsKept := fun k row hrow => .inl (hkept' k row hrow)
          tasks := htaskMoves
          closed := ⟨hupdate.closed.ended, hupdate.closed.previous⟩
          issued := hupdate.issued
          sites := rfl
          publications := rfl
          certificates := rfl
          deletions := rfl }

/-! ### Uninstalling -/

theorem nodeUninstallJob_eq_ok {job : NodeUninstallJob} :
    db.nodeUninstallJob nodeID = .ok job ↔ db.nodeUninstallJobs.find? nodeID = some job := by
  simp [nodeUninstallJob]

theorem prepareNodeUninstall_effect {affectedSiteIDs : List String} {readyAt : Time}
    (hclosed : UninstallsClosed db)
    (h : db.prepareNodeUninstall nodeID affectedSiteIDs readyAt now = .ok db') :
    NodeEffect db db' := by
  simp only [prepareNodeUninstall, bind_eq_ok, require_eq_ok, getNode_eq_ok, exists_const] at h
  obtain ⟨node, hnode, -, -, hstatus, h⟩ := h
  have hnot : node.status ≠ .uninstalled := by
    rintro huninstalled
    rw [huninstalled] at hstatus
    simp at hstatus
  split at h
  · obtain rfl := pure_eq_ok.mp h
    exact .refl hclosed
  · obtain rfl := pure_eq_ok.mp h
    refine NodeFrame.effect_of_nodes_eq ⟨rfl, rfl, rfl, rfl, rfl, rfl, rfl, rfl⟩ rfl ?_
    refine hclosed.moves (NodeRowMoves.refl db nodeID) (fun _ _ => id) fun n job' hjob' => ?_
    rw [Table.find?_upsert] at hjob'
    split at hjob'
    · next heq =>
      obtain rfl := Option.some.inj hjob'
      refine ⟨hnot, .inr fun node' hnode' => ?_⟩
      have hid : nodeID = n := heq
      rw [← hid] at hnode'
      obtain rfl : node = node' := Option.some.inj (hnode.symm.trans hnode')
      exact hnot
    · exact ⟨hclosed.previous job' (Table.mem_of_find? hjob'), .inl ⟨job', hjob', rfl⟩⟩

theorem not_over_of_waits {status : NodeUninstallJobStatus} (h : uninstallJobWaits status = true) :
    status ≠ .succeeded ∧ status ≠ .forced := by
  constructor
  · rintro rfl
    cases h
  · rintro rfl
    cases h

theorem issueNodeUninstallToken_effect {token : String} {expiresAt : Time}
    (hclosed : UninstallsClosed db)
    (h : db.issueNodeUninstallToken nodeID token expiresAt now = .ok db') :
    NodeEffect db db' := by
  simp only [issueNodeUninstallToken, bind_eq_ok, require_eq_ok, orError_eq_ok, pure_eq_ok,
    exists_const] at h
  obtain ⟨-, job, hjob, hwaits, rfl⟩ := h
  obtain ⟨hsucceeded, hforced⟩ := not_over_of_waits hwaits
  exact updateUninstallJob_effect (updateUninstallJob_closed (by intro _; rfl) hclosed (fun _ => rfl)
    (hclosed.not_uninstalled hjob hsucceeded hforced))

theorem cancelNodeUninstall_effect (hclosed : UninstallsClosed db)
    (h : db.cancelNodeUninstall nodeID now = .ok db') : NodeEffect db db' := by
  simp only [cancelNodeUninstall, bind_eq_ok, require_eq_ok, nodeUninstallJob_eq_ok, pure_eq_ok,
    exists_const] at h
  obtain ⟨job, hjob, -, hwaits, rfl⟩ := h
  obtain ⟨hsucceeded, hforced⟩ := not_over_of_waits hwaits
  exact updateUninstallJob_effect (updateUninstallJob_closed (by intro _; rfl) hclosed (fun _ => rfl)
    (hclosed.not_uninstalled hjob hsucceeded hforced))

theorem uninstallJobByToken_eq_ok {token : String} {job : NodeUninstallJob}
    (h : db.uninstallJobByToken token now = .ok job) :
    db.nodeUninstallJobs.find? job.nodeID = some job := by
  simp only [uninstallJobByToken, bind_eq_ok, require_eq_ok, orError_eq_ok, pure_eq_ok,
    exists_const] at h
  obtain ⟨-, job', hfind, -, rfl⟩ := h
  exact Table.find?_of_mem (List.mem_of_find?_eq_some hfind)

/-- A step of an open workflow that gives its node another status. -/
theorem updateUninstall_effect {f : Node → Node} {g : NodeUninstallJob → NodeUninstallJob}
    {hf : ∀ node, key (f node) = key node} {hg : ∀ job, key (g job) = key job}
    (hclosed : UninstallsClosed db)
    (hprevious : ∀ job, (g job).previousStatus = job.previousStatus)
    (happlied : ∀ node, (f node).appliedVersion = node.appliedVersion)
    (hnot : ∀ node, db.nodes.find? nodeID = some node → node.status ≠ .uninstalled)
    (hnot' : ∀ node, (f node).status ≠ .uninstalled) :
    NodeEffect db ((db.updateUninstallJob nodeID g hg).updateNode nodeID f hf) := by
  have hjobs := updateUninstallJob_closed hg hclosed hprevious hnot
  have hmoves : NodeRowMoves db ((db.updateUninstallJob nodeID g hg).updateNode nodeID f hf) nodeID
      f := find?_updateNode (db.updateUninstallJob nodeID g hg) hf
  refine NodeFrame.effect ⟨rfl, rfl, rfl, rfl, rfl, rfl, rfl, rfl⟩ hmoves ?_
    (fun node _ huninstalled => absurd huninstalled (hnot' node)) ?_
  · intro node hnode
    exact ⟨(happlied node).ge, fun huninstalled => absurd huninstalled (hnot node hnode)⟩
  · exact hjobs.same_jobs (find?_updateNode _ hf)
      (fun node _ huninstalled => absurd huninstalled (hnot' node)) rfl

theorem startNodeUninstall_effect {token : String} (hclosed : UninstallsClosed db)
    (h : db.startNodeUninstall token now = .ok db') : NodeEffect db db' := by
  simp only [startNodeUninstall, bind_eq_ok] at h
  obtain ⟨job, hjob, h⟩ := h
  have hfind := uninstallJobByToken_eq_ok hjob
  have hopen : ∀ status, job.status = status → status ≠ .succeeded → status ≠ .forced →
      ∀ node, db.nodes.find? job.nodeID = some node → node.status ≠ .uninstalled := by
    rintro _ rfl
    exact hclosed.not_uninstalled hfind
  split at h
  · obtain rfl := pure_eq_ok.mp h
    exact .refl hclosed
  · next hforced =>
    obtain rfl := pure_eq_ok.mp h
    refine updateUninstallJob_effect (hclosed.moves (NodeRowMoves.refl db "") (fun _ _ => id)
      fun n job' hjob' => ?_)
    rw [find?_updateUninstallJob] at hjob'
    split at hjob'
    · obtain ⟨job, hjob, rfl⟩ := Option.map_eq_some_iff.mp hjob'
      exact ⟨hclosed.previous job (Table.mem_of_find? hjob), .inl ⟨job, hjob, rfl⟩⟩
    · exact ⟨hclosed.previous job' (Table.mem_of_find? hjob'), .inl ⟨job', hjob', rfl⟩⟩
  · next hready =>
    obtain rfl := pure_eq_ok.mp h
    exact updateUninstall_effect hclosed (fun _ => rfl) (fun _ => rfl)
      (hopen _ hready nofun nofun) (fun _ => nofun)
  · next hrunning =>
    obtain rfl := pure_eq_ok.mp h
    exact updateUninstall_effect hclosed (fun _ => rfl) (fun _ => rfl)
      (hopen _ hrunning nofun nofun) (fun _ => nofun)
  · next hfailed =>
    obtain rfl := pure_eq_ok.mp h
    exact updateUninstall_effect hclosed (fun _ => rfl) (fun _ => rfl)
      (hopen _ hfailed nofun nofun) (fun _ => nofun)
  · cases h

theorem failNodeUninstall_effect {token detail : String} (hclosed : UninstallsClosed db)
    (h : db.failNodeUninstall token detail now = .ok db') : NodeEffect db db' := by
  simp only [failNodeUninstall, bind_eq_ok] at h
  obtain ⟨job, hjob, h⟩ := h
  have hfind := uninstallJobByToken_eq_ok hjob
  have hprevious := hclosed.previous job (Table.mem_of_find? hfind)
  have hopen : ∀ status, job.status = status → status ≠ .succeeded → status ≠ .forced →
      ∀ node, db.nodes.find? job.nodeID = some node → node.status ≠ .uninstalled := by
    rintro _ rfl
    exact hclosed.not_uninstalled hfind
  split at h
  · obtain rfl := pure_eq_ok.mp h
    exact .refl hclosed
  · obtain rfl := pure_eq_ok.mp h
    exact .refl hclosed
  · next hrunning =>
    obtain rfl := pure_eq_ok.mp h
    exact updateUninstall_effect hclosed (fun _ => rfl) (fun _ => rfl)
      (hopen _ hrunning (by rintro ⟨⟩) (by rintro ⟨⟩)) (fun _ => hprevious)
  · next hfailed =>
    obtain rfl := pure_eq_ok.mp h
    exact updateUninstall_effect hclosed (fun _ => rfl) (fun _ => rfl)
      (hopen _ hfailed (by rintro ⟨⟩) (by rintro ⟨⟩)) (fun _ => hprevious)
  · cases h

/-- The states without that of one node. -/
theorem deleteNodeState (db : Store) (nodeID n : String) :
    (db.nodeStates.delete fun row => row.nodeID = nodeID).find? n =
      if n = nodeID then none else db.nodeStates.find? n :=
  Table.find?_delete_key (fun _ => rfl) n

/-- The end of an uninstall: the node is uninstalled, its workflow over and its state gone. -/
theorem finishNodeUninstall_effect {status : NodeUninstallJobStatus} {forced : Bool}
    {detail : String} (hclosed : UninstallsClosed db)
    (hstatus : status = .succeeded ∨ status = .forced) :
    NodeEffect db (db.finishNodeUninstall nodeID status forced detail now) := by
  set f : Node → Node := fun node =>
    { node with status := .uninstalled, certFingerprint := none, lastError := "", updatedAt := now }
    with hf
  have hmoves : NodeRowMoves db (db.finishNodeUninstall nodeID status forced detail now) nodeID f :=
    find?_updateNode db (f := f) (by intro _; rfl)
  have hclosed' : UninstallsClosed (db.finishNodeUninstall nodeID status forced detail now) := by
    constructor
    · intro n node' job' hnode' huninstalled hjob'
      have hjob : _ = some job' :=
        (find?_updateUninstallJob db (by intro _; rfl) n).symm.trans hjob'
      split at hjob
      · obtain ⟨job, -, rfl⟩ := Option.map_eq_some_iff.mp hjob
        exact hstatus
      · next hne =>
        rw [hmoves, if_neg hne] at hnode'
        exact hclosed.ended n node' job' hnode' huninstalled hjob
    · intro job' hjob'
      have hjob : _ = some job' := (find?_updateUninstallJob db (by intro _; rfl) _).symm.trans
        (Table.find?_of_mem hjob')
      split at hjob
      · obtain ⟨job, hjob, rfl⟩ := Option.map_eq_some_iff.mp hjob
        exact hclosed.previous job (Table.mem_of_find? hjob)
      · exact hclosed.previous job' (Table.mem_of_find? hjob)
  have hkept : ∀ node, db.nodes.find? nodeID = some node → NodeKept node (f node) :=
    fun node _ => ⟨le_rfl, fun _ => rfl⟩
  have hfindState : ∀ n,
      (db.finishNodeUninstall nodeID status forced detail now).nodeStates.find? n =
        if n = nodeID then none else db.nodeStates.find? n := deleteNodeState db nodeID
  constructor
  case node => exact fun n node' hnode' => .inl (hmoves.node hkept hnode')
  case gone =>
    rintro n ⟨node, hnode⟩ hnone
    exact absurd hnone (hmoves.not_gone hnode)
  case uninstalled =>
    intro n node' hnode' huninstalled
    by_cases hn : n = nodeID
    · left
      rw [hfindState, if_pos hn]
    · right
      rw [hmoves, if_neg hn] at hnode'
      exact ⟨node', hnode', huninstalled⟩
  case state =>
    intro n
    rw [hfindState]
    split
    · next hn =>
      refine .inr ⟨rfl, fun node' hnode' => ?_⟩
      rw [hmoves, if_pos hn] at hnode'
      obtain ⟨node, -, rfl⟩ := Option.map_eq_some_iff.mp hnode'
      rfl
    · exact .inl rfl
  case targets => exact .of_eq rfl
  case targetsKept => exact fun k row hrow => .inl ⟨row, hrow⟩
  case tasks => exact .of_eq rfl
  case closed => exact hclosed'
  case issued => exact List.Subset.refl _
  case sites => rfl
  case publications => rfl
  case certificates => rfl
  case deletions => rfl

theorem completeNodeUninstall_effect {token : String} (hclosed : UninstallsClosed db)
    (h : db.completeNodeUninstall token now = .ok db') : NodeEffect db db' := by
  simp only [completeNodeUninstall, bind_eq_ok] at h
  obtain ⟨job, -, h⟩ := h
  split at h
  · obtain rfl := pure_eq_ok.mp h
    exact .refl hclosed
  · simp only [bind_eq_ok, pure_eq_ok] at h
    obtain ⟨-, -, rfl⟩ := h
    exact finishNodeUninstall_effect hclosed (.inl rfl)
  · obtain rfl := pure_eq_ok.mp h
    exact finishNodeUninstall_effect hclosed (.inl rfl)
  · cases h

/-! ### Deleting a node -/

theorem deleteNode_effect (hclosed : UninstallsClosed db)
    (h : db.deleteNode nodeID = .ok db') : NodeEffect db db' := by
  simp only [deleteNode, bind_eq_ok, require_eq_ok, pure_eq_ok, exists_const] at h
  obtain ⟨hsites, hpublications, -, -, rfl⟩ := h
  have hunlisted : db.Unlisted nodeID := by
    constructor
    · intro site hsite
      simpa using Table.any_eq_false.mp hsites site hsite
    · intro publication hpublication
      simpa using Table.any_eq_false.mp hpublications publication hpublication
  have hfind : ∀ n node', (db.nodes.delete fun node => node.id = nodeID).find? n = some node' →
      n ≠ nodeID ∧ db.nodes.find? n = some node' := by
    intro n node' hnode'
    rw [Table.find?_delete] at hnode'
    obtain ⟨hnode, hne⟩ := Option.filter_eq_some_iff.mp hnode'
    have hid : node'.id = n := Table.key_of_find? hnode
    exact ⟨by simpa [hid] using hne, hnode⟩
  have hgone : ∀ n, (∃ node, db.nodes.find? n = some node) →
      (db.nodes.delete fun node => node.id = nodeID).find? n = none → n = nodeID := by
    rintro n ⟨node, hnode⟩ hnone
    rw [Table.find?_delete, hnode] at hnone
    have hid : node.id = n := Table.key_of_find? hnode
    by_contra hne
    simp [Option.filter, hid, hne] at hnone
  have hstate := deleteNodeState db nodeID
  have htarget : ∀ k row, (db.publishTaskNodes.delete fun row => row.nodeID = nodeID).find? k =
      some row → db.publishTaskNodes.find? k = some row := by
    intro k row hrow
    rw [Table.find?_delete] at hrow
    exact (Option.filter_eq_some_iff.mp hrow).1
  constructor
  case node =>
    intro n node' hnode'
    exact .inl ⟨node', (hfind n node' hnode').2, .refl node'⟩
  case gone =>
    intro n hsome hnone
    obtain rfl := hgone n hsome hnone
    exact ⟨hunlisted, by rw [hstate, if_pos rfl]⟩
  case uninstalled =>
    intro n node' hnode' huninstalled
    exact .inr ⟨node', (hfind n node' hnode').2, huninstalled⟩
  case state =>
    intro n
    dsimp only
    rw [hstate]
    split
    · next hn =>
      right
      refine ⟨rfl, fun node' hnode' => absurd hn (hfind n node' hnode').1⟩
    · exact .inl rfl
  case targets =>
    intro k row hrow
    exact ⟨row, htarget k row hrow, rfl, .inl rfl⟩
  case targetsKept =>
    intro k row hrow
    by_cases hn : row.nodeID = nodeID
    · right
      by_contra hsome
      obtain ⟨node, hnode⟩ := Option.ne_none_iff_exists'.mp hsome
      exact (hfind _ node hnode).1 hn
    · left
      refine ⟨row, ?_⟩
      dsimp only
      rw [Table.find?_delete, hrow]
      simp [Option.filter, hn]
  case tasks => exact .of_eq rfl
  case closed =>
    constructor
    · intro n node job hnode huninstalled hjob
      dsimp only at hjob
      rw [Table.find?_delete] at hjob
      exact hclosed.ended n node job (hfind n node hnode).2 huninstalled
        (Option.filter_eq_some_iff.mp hjob).1
    · intro job hjob
      exact hclosed.previous job (Table.mem_delete.mp hjob).1
  case issued => exact List.Subset.refl _
  case sites => rfl
  case publications => rfl
  case certificates => rfl
  case deletions => rfl

end

end Store

/-- What any node operation writes; a heartbeat is taken as an edge sends it. -/
theorem NodeOp.effect {db db' : Store} {now : Time} {op : NodeOp} (hclosed : db.UninstallsClosed)
    (hsent : op.sent = true) (h : op.apply db now = .ok db') : Store.NodeEffect db db' := by
  cases op with
  | createNode id name publicIPv4 =>
    obtain ⟨⟨node, db₁⟩, hcreate, rfl⟩ := map_eq_ok.mp h
    exact Store.createNode_effect hclosed hcreate
  | setCacheMaxSizeGB nodeID size =>
    simp only [NodeOp.apply, Store.setNodeCacheMaxSizeGB, bind_eq_ok, pure_eq_ok] at h
    obtain ⟨-, -, -, -, rfl⟩ := h
    exact Store.updateNode_effect hclosed (fun node _ => ⟨le_rfl, id⟩) fun node _ => id
  | setNginxCapacity nodeID capacity =>
    simp only [NodeOp.apply, Store.setNodeNginxCapacity, bind_eq_ok, pure_eq_ok] at h
    obtain ⟨-, -, -, -, rfl⟩ := h
    exact Store.updateNode_effect hclosed (fun node _ => ⟨le_rfl, id⟩) fun node _ => id
  | setCapabilities nodeID capabilities =>
    simp only [NodeOp.apply, Store.setNodeCapabilities, bind_eq_ok, pure_eq_ok] at h
    obtain ⟨-, -, rfl⟩ := h
    exact Store.updateNode_effect hclosed (fun node _ => ⟨le_rfl, id⟩) fun node _ => id
  | createEnrollmentToken nodeID token expiresAt =>
    simp only [NodeOp.apply, Store.createEnrollmentToken, bind_eq_ok, pure_eq_ok] at h
    obtain ⟨-, -, -, -, -, -, tokens, -, rfl⟩ := h
    exact Store.NodeFrame.effect_of_nodes_eq ⟨rfl, rfl, rfl, rfl, rfl, rfl, rfl, rfl⟩ rfl
      ⟨hclosed.ended, hclosed.previous⟩
  | setNodeStatus nodeID status => exact Store.setNodeStatus_effect hclosed h
  | recordMonitoringRound nodeID consecutiveAbnormal =>
    exact Store.recordMonitoringRound_effect hclosed h
  | heartbeat => exact Store.heartbeat_effect hclosed hsent h
  | prepareUninstall nodeID affectedSiteIDs readyAt => exact Store.prepareNodeUninstall_effect hclosed h
  | issueUninstallToken nodeID token expiresAt => exact Store.issueNodeUninstallToken_effect hclosed h
  | startUninstall token => exact Store.startNodeUninstall_effect hclosed h
  | failUninstall token detail => exact Store.failNodeUninstall_effect hclosed h
  | completeUninstall token => exact Store.completeNodeUninstall_effect hclosed h
  | forceCompleteUninstall nodeID detail =>
    simp only [NodeOp.apply, Store.forceCompleteNodeUninstall, bind_eq_ok, pure_eq_ok] at h
    obtain ⟨-, -, -, -, rfl⟩ := h
    exact Store.finishNodeUninstall_effect hclosed (.inr rfl)
  | cancelUninstall nodeID => exact Store.cancelNodeUninstall_effect hclosed h
  | deleteNode nodeID =>
    simp only [NodeOp.apply, bind_eq_ok] at h
    obtain ⟨-, -, -, -, h⟩ := h
    exact Store.deleteNode_effect hclosed h

end SimpleCdn
