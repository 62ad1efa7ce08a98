import SimpleCdn.Upgrading.System

/-!
# What the control plane does to upgrade tasks

Besides the creation of a task, every operation of the control plane leaves each task with its
node, its artifact and its time of creation, and a task only goes with its node.  So a task stays
the newest one of its node until another one is created.
-/

namespace SimpleCdn

namespace Store

structure UpgradesKept (db db' : Store) : Prop where
  rows : ∀ task' ∈ db'.nodeUpgradeTasks, ∃ task ∈ db.nodeUpgradeTasks, UpgradeKept task task'
  kept : ∀ task ∈ db.nodeUpgradeTasks,
    (∃ task' ∈ db'.nodeUpgradeTasks, UpgradeKept task task') ∨ db'.nodes.find? task.nodeID = none

/-- The task with this artifact is the newest one of the node. -/
def Current (db : Store) (n taskID targetSHA256 : String) : Prop :=
  ∃ task ∈ db.nodeUpgradeTasks, task.id = taskID ∧ task.nodeID = n ∧
    task.targetSHA256 = targetSHA256 ∧ ∀ other ∈ db.nodeUpgradeTasks, other.nodeID = n →
      other.id ≠ taskID → other.createdAt < task.createdAt

section

variable {db db' : Store} {n nodeID taskID targetSHA256 : String} {now : Time}

theorem UpgradesKept.of_eq (h : db'.nodeUpgradeTasks = db.nodeUpgradeTasks) :
    UpgradesKept db db' := by
  constructor
  · intro task htask
    rw [h] at htask
    exact ⟨task, htask, .refl task⟩
  · intro task htask
    rw [h]
    exact .inl ⟨task, htask, .refl task⟩

theorem UpgradesKept.of_rows (h : UpgradeRowsKept db.nodeUpgradeTasks db'.nodeUpgradeTasks) :
    UpgradesKept db db' := by
  obtain ⟨F, hrows, hkept⟩ := h
  constructor
  · intro task' htask'
    rw [Table.mem_iff, hrows] at htask'
    obtain ⟨task, htask, rfl⟩ := List.mem_map.mp htask'
    exact ⟨task, htask, hkept task htask⟩
  · intro task htask
    refine .inl ⟨F task, ?_, hkept task htask⟩
    rw [Table.mem_iff, hrows]
    exact List.mem_map_of_mem htask

theorem UpgradesKept.refl (db : Store) : UpgradesKept db db :=
  .of_eq rfl

/-- A task stays the newest one of a node with a row. -/
theorem Current.kept (hkept : UpgradesKept db db') (h : db.Current n taskID targetSHA256)
    {node : Node} (hnode : db'.nodes.find? n = some node) : db'.Current n taskID targetSHA256 := by
  obtain ⟨task, htask, rfl, rfl, rfl, hnewest⟩ := h
  rcases hkept.kept task htask with ⟨task', htask', hsame⟩ | hgone
  · refine ⟨task', htask', hsame.id, hsame.nodeID, hsame.target, fun other' hother' hn hid => ?_⟩
    obtain ⟨other, hother, hothers⟩ := hkept.rows other' hother'
    rw [hothers.created, hsame.created]
    exact hnewest other hother (hothers.nodeID.symm.trans hn)
      fun heq => hid (hothers.id.trans heq)
  · rw [hgone] at hnode
    cases hnode

/-- It is the one that the control plane takes for the latest. -/
theorem Current.latest (h : db.Current n taskID targetSHA256) :
    ∃ task, db.latestNodeUpgrade n = some task ∧ db.nodeUpgradeTasks.find? taskID = some task ∧
      task.nodeID = n ∧ task.targetSHA256 = targetSHA256 := by
  obtain ⟨task, htask, rfl, rfl, rfl, hnewest⟩ := h
  refine ⟨task, ?_, Table.find?_of_mem htask, rfl, rfl⟩
  have hcandidate : task ∈ db.nodeUpgradeTasks.rows.filter
      fun other => other.nodeID = task.nodeID := List.mem_filter.mpr ⟨htask, by simp⟩
  cases hlatest : db.latestNodeUpgrade task.nodeID with
  | none =>
    have hempty := List.argmax_eq_none.mp hlatest
    rw [hempty] at hcandidate
    cases hcandidate
  | some latest =>
    -- nothing newer can have been found
    have hfound : latest ∈ List.argmax NodeUpgradeTask.createdAt
      (db.nodeUpgradeTasks.rows.filter fun other => other.nodeID = task.nodeID) := hlatest
    have hge := List.le_of_mem_argmax hcandidate hfound
    obtain ⟨hmem, hn⟩ := List.mem_filter.mp (List.argmax_mem hfound)
    rw [decide_eq_true_eq] at hn
    by_cases hid : latest.id = task.id
    · rw [Table.eq_of_key_eq hmem htask hid]
    · have hlt := hnewest latest hmem hn hid
      exact absurd hlt (not_lt.mpr hge)

/-- A report on it is accepted. -/
theorem Current.recorded (h : db.Current n taskID targetSHA256) {report : NodeUpgradeReport}
    (hid : report.taskID = taskID) (hstatus : report.status ≠ .queued)
    (hinstalled : report.status = .succeeded → report.installedSHA256 = targetSHA256) (now : Time) :
    (db.recordNodeUpgradeReport n report now).isOk = true := by
  obtain ⟨task, hlatest, hfind, hn, rfl⟩ := h.latest
  have hrecorded : ∃ db', db.reportUpgrade task report now = .ok db' := by
    unfold reportUpgrade
    split
    · split
      · exact ⟨_, rfl⟩
      · exact ⟨_, rfl⟩
    · next hsucceeded =>
      simp only [bind_eq_ok, require_eq_ok, exists_const]
      exact ⟨_, hinstalled hsucceeded, rfl⟩
    · split
      · exact ⟨_, rfl⟩
      · split
        · exact ⟨_, rfl⟩
        · exact ⟨_, rfl⟩
    · next hqueued => exact absurd hqueued hstatus
  obtain ⟨db', hdb'⟩ := hrecorded
  have hok : db.recordNodeUpgradeReport n report now = .ok db' := by
    simp only [recordNodeUpgradeReport, bind_eq_ok, orError_eq_ok, require_eq_ok, exists_const]
    refine ⟨task, by rw [hid, hfind], hn, ?_, hdb'⟩
    rw [hlatest]
    simp
  rw [hok]
  rfl

/-! ### Operations on nodes -/

theorem setNodeStatus_upgrades {status : NodeStatus}
    (h : db.setNodeStatus nodeID status now = .ok db') : UpgradesKept db db' := by
  simp only [setNodeStatus, bind_eq_ok, require_eq_ok, exists_const] at h
  obtain ⟨-, -, -, -, -, h⟩ := h
  split at h
  · obtain rfl := pure_eq_ok.mp h
    exact .of_rows (.update (by intro _; rfl) fun task _ _ => ⟨rfl, rfl, rfl, rfl, (by rintro ⟨⟩)⟩)
  · obtain rfl := pure_eq_ok.mp h
    exact .of_eq rfl

theorem deleteNode_upgrades (h : db.deleteNode nodeID = .ok db') : UpgradesKept db db' := by
  simp only [deleteNode, bind_eq_ok, require_eq_ok, pure_eq_ok, exists_const] at h
  obtain ⟨-, -, -, -, rfl⟩ := h
  constructor
  · intro task htask
    exact ⟨task, (Table.mem_delete.mp htask).1, .refl task⟩
  · intro task htask
    by_cases hn : task.nodeID = nodeID
    · right
      have hnodes := Table.find?_delete_key (T := db.nodes)
        (p := fun node => node.id = nodeID) (fun _ => rfl) task.nodeID
      exact hnodes.trans (if_pos hn)
    · refine .inl ⟨task, Table.mem_delete.mpr ⟨htask, ?_⟩, .refl task⟩
      simpa using hn

theorem startNodeUninstall_upgrades {token : String}
    (h : db.startNodeUninstall token now = .ok db') :
    db'.nodeUpgradeTasks = db.nodeUpgradeTasks := by
  simp only [startNodeUninstall, bind_eq_ok] at h
  obtain ⟨job, -, h⟩ := h
  split at h
  · rw [← pure_eq_ok.mp h]
  · rw [← pure_eq_ok.mp h]
    rfl
  · rw [← pure_eq_ok.mp h]
    rfl
  · rw [← pure_eq_ok.mp h]
    rfl
  · rw [← pure_eq_ok.mp h]
    rfl
  · cases h

theorem failNodeUninstall_upgrades {token detail : String}
    (h : db.failNodeUninstall token detail now = .ok db') :
    db'.nodeUpgradeTasks = db.nodeUpgradeTasks := by
  simp only [failNodeUninstall, bind_eq_ok] at h
  obtain ⟨job, -, h⟩ := h
  split at h
  · rw [← pure_eq_ok.mp h]
  · rw [← pure_eq_ok.mp h]
  · rw [← pure_eq_ok.mp h]
    rfl
  · rw [← pure_eq_ok.mp h]
    rfl
  · cases h

theorem completeNodeUninstall_upgrades {token : String}
    (h : db.completeNodeUninstall token now = .ok db') :
    db'.nodeUpgradeTasks = db.nodeUpgradeTasks := by
  simp only [completeNodeUninstall, bind_eq_ok] at h
  obtain ⟨job, -, h⟩ := h
  split at h
  · rw [← pure_eq_ok.mp h]
  · simp only [bind_eq_ok, pure_eq_ok] at h
    obtain ⟨-, -, rfl⟩ := h
    rfl
  · rw [← pure_eq_ok.mp h]
    rfl
  · cases h

/-- What administrators and the uninstall script do. -/
theorem nodeOp_upgrades {op : NodeOp} (hedge : Lifecycle.byEdge op = false)
    (h : op.apply db now = .ok db') : UpgradesKept db db' := by
  cases op with
  | createNode id name publicIPv4 =>
    obtain ⟨⟨node, db₁⟩, hcreate, rfl⟩ := map_eq_ok.mp h
    simp only [createNode, bind_eq_ok, require_eq_ok, orError_eq_ok, pure_eq_ok, exists_const,
      Prod.mk.injEq] at hcreate
    obtain ⟨-, db₂, hnew, -, nodes, -, -, rfl⟩ := hcreate
    obtain ⟨-, rfl⟩ := newID_eq_ok.mp hnew
    exact .of_eq rfl
  | setCacheMaxSizeGB nodeID size =>
    simp only [NodeOp.apply, setNodeCacheMaxSizeGB, bind_eq_ok, pure_eq_ok] at h
    obtain ⟨-, -, -, -, rfl⟩ := h
    exact .of_eq rfl
  | setNginxCapacity nodeID capacity =>
    simp only [NodeOp.apply, setNodeNginxCapacity, bind_eq_ok, pure_eq_ok] at h
    obtain ⟨-, -, -, -, rfl⟩ := h
    exact .of_eq rfl
  | setCapabilities nodeID capabilities =>
    simp only [NodeOp.apply, setNodeCapabilities, bind_eq_ok, pure_eq_ok] at h
    obtain ⟨-, -, rfl⟩ := h
    exact .of_eq rfl
  | createEnrollmentToken nodeID token expiresAt =>
    simp only [NodeOp.apply, createEnrollmentToken, bind_eq_ok, pure_eq_ok] at h
    obtain ⟨-, -, -, -, -, -, tokens, -, rfl⟩ := h
    exact .of_eq rfl
  | setNodeStatus nodeID status => exact setNodeStatus_upgrades h
  | recordMonitoringRound | heartbeat => cases hedge
  | prepareUninstall nodeID affectedSiteIDs readyAt =>
    simp only [NodeOp.apply, prepareNodeUninstall, bind_eq_ok, require_eq_ok, exists_const] at h
    obtain ⟨node, -, -, -, -, h⟩ := h
    split at h
    · rw [← pure_eq_ok.mp h]
      exact .refl db
    · rw [← pure_eq_ok.mp h]
      exact .of_eq rfl
  | issueUninstallToken nodeID token expiresAt =>
    simp only [NodeOp.apply, issueNodeUninstallToken, bind_eq_ok, require_eq_ok, pure_eq_ok,
      exists_const] at h
    obtain ⟨-, -, -, -, rfl⟩ := h
    exact .of_eq rfl
  | startUninstall token => exact .of_eq (startNodeUninstall_upgrades h)
  | failUninstall token detail => exact .of_eq (failNodeUninstall_upgrades h)
  | completeUninstall token => exact .of_eq (completeNodeUninstall_upgrades h)
  | forceCompleteUninstall nodeID detail =>
    simp only [NodeOp.apply, forceCompleteNodeUninstall, bind_eq_ok, require_eq_ok, pure_eq_ok,
      exists_const] at h
    obtain ⟨-, -, -, rfl⟩ := h
    exact .of_eq rfl
  | cancelUninstall nodeID =>
    simp only [NodeOp.apply, cancelNodeUninstall, bind_eq_ok, require_eq_ok, pure_eq_ok,
      exists_const] at h
    obtain ⟨-, -, -, -, rfl⟩ := h
    exact .of_eq rfl
  | deleteNode nodeID =>
    simp only [NodeOp.apply, bind_eq_ok] at h
    obtain ⟨-, -, -, -, hdelete⟩ := h
    exact deleteNode_upgrades hdelete

/-- A task is created, or none is. -/
theorem createOrGetNodeUpgrade_cases {deadline : Time}
    (h : db.createOrGetNodeUpgrade nodeID taskID targetSHA256 deadline now = .ok db') :
    db' = db ∨ db.activeNodeUpgrade nodeID = none ∧ db'.nodes = db.nodes ∧
      ∃ new : NodeUpgradeTask, new.nodeID = nodeID ∧ new.id = taskID ∧
        ∀ task, task ∈ db'.nodeUpgradeTasks ↔ task ∈ db.nodeUpgradeTasks ∨ task = new := by
  simp only [createOrGetNodeUpgrade, bind_eq_ok, require_eq_ok, exists_const] at h
  obtain ⟨-, h⟩ := h
  split at h
  · exact .inl (pure_eq_ok.mp h).symm
  · next hnone =>
    simp only [createNodeUpgrade, bind_eq_ok, require_eq_ok, getNode_eq_ok, orError_eq_ok,
      pure_eq_ok, exists_const] at h
    obtain ⟨node, -, -, -, -, db₁, hnew, tasks, hinsert, rfl⟩ := h
    obtain ⟨-, rfl⟩ := newID_eq_ok.mp hnew
    exact .inr ⟨hnone, rfl, _, rfl, rfl, fun task => Table.mem_of_insert? hinsert⟩

/-- Another node's newest task stays the newest. -/
theorem Current.create {deadline : Time} {id target : String} (h : db.Current n id target)
    (hcreate : db.createOrGetNodeUpgrade nodeID taskID targetSHA256 deadline now = .ok db')
    (hother : db' = db ∨ n ≠ nodeID) : db'.Current n id target := by
  rcases createOrGetNodeUpgrade_cases hcreate with rfl | ⟨-, -, new, hnew, -, hmem⟩
  · exact h
  · rcases hother with rfl | hn
    · exact h
    · obtain ⟨task, htask, hid, htaskNode, htarget, hnewest⟩ := h
      refine ⟨task, (hmem task).mpr (.inl htask), hid, htaskNode, htarget,
        fun other hmember hnode => ?_⟩
      rcases (hmem other).mp hmember with hold | rfl
      · exact hnewest other hold hnode
      · exact absurd (hnode.symm.trans hnew) hn

end

end Store

namespace Upgrading

open Store Lifecycle

theorem statement_upgrades {db db' : MonitoredStore} {nodeID : String} {now : Time}
    {statement : Statement} (h : statement.execute db nodeID now = .ok db') :
    UpgradesKept db.toStore db'.toStore := by
  cases statement with
  | setNodeCapabilities capabilities =>
    obtain ⟨store, hset, rfl⟩ := onStore_eq_ok.mp h
    simp only [setNodeCapabilities, bind_eq_ok, pure_eq_ok] at hset
    obtain ⟨-, -, rfl⟩ := hset
    exact .of_eq rfl
  | recordReport report =>
    obtain ⟨store, hrecord, rfl⟩ := onStore_eq_ok.mp h
    cases report with
    | none =>
      obtain rfl := Except.ok.inj hrecord
      exact .refl _
    | some report =>
      simp only [recordReport, recordPublishApply, bind_eq_ok, pure_eq_ok] at hrecord
      obtain ⟨-, -, rfl⟩ := hrecord
      exact .of_eq rfl
  | updateNode appliedVersion lastError agentVersion agentSHA256 activeUpgradeID =>
    obtain ⟨store, hbeat, rfl⟩ := onStore_eq_ok.mp h
    simp only [heartbeatNode, bind_eq_ok, pure_eq_ok] at hbeat
    obtain ⟨-, -, rfl⟩ := hbeat
    exact .of_eq rfl
  | reconcileNodeUpgrades =>
    obtain ⟨store, hstore, rfl⟩ := onStore_eq_ok.mp h
    obtain rfl := Except.ok.inj hstore
    exact .of_rows (reconcileNodeUpgrades_rows db.toStore now)
  | reconcilePublishTasks =>
    obtain ⟨store, hstore, rfl⟩ := onStore_eq_ok.mp h
    obtain rfl := Except.ok.inj hstore
    obtain ⟨tasks, rows, hframe⟩ := db.toStore.reconcilePublishTasks_frame now
    rw [hframe]
    exact .of_eq rfl
  | setNodeCertificate fingerprint =>
    obtain ⟨store, hset, rfl⟩ := onStore_eq_ok.mp h
    simp only [setNodeCertificate, bind_eq_ok, pure_eq_ok] at hset
    obtain ⟨-, -, -, -, rfl⟩ := hset
    exact .of_eq rfl
  | recordMonitoringRound round =>
    simp only [Statement.execute, MonitoredStore.recordMonitoringRound,
      Store.recordMonitoringRound, bind_eq_ok, pure_eq_ok] at h
    obtain ⟨-, -, -, -, -, -, store, ⟨-, -, rfl⟩, rfl⟩ := h
    exact .of_eq rfl
  | recordNodeUpgradeReport report =>
    obtain ⟨store, hrecord, rfl⟩ := onStore_eq_ok.mp h
    obtain ⟨tasks, rfl, hrows⟩ := recordNodeUpgradeReport_rows hrecord
    exact .of_rows hrows

/-- What the control plane does besides creating tasks. -/
theorem control_upgrades (s : Lifecycle.State) {a : Lifecycle.Action}
    (ha : ∀ nodeID id targetSHA256 deadline now,
      a ≠ .startUpgrade nodeID id targetSHA256 deadline now) :
    UpgradesKept s.db.toStore (Lifecycle.step s a).db.toStore := by
  cases a with
  | node op now =>
    simp only [Lifecycle.step]
    split
    · exact .refl _
    · next hguard =>
      rw [Bool.or_eq_true, not_or] at hguard
      unfold State.nodeOp
      cases happly : s.db.applyNodeOp now op with
      | error e => exact .refl _
      | ok db =>
        exact nodeOp_upgrades (Bool.eq_false_iff.mpr hguard.1) (applyNodeOp_store happly)
  | monitoringTarget op now =>
    simp only [Lifecycle.step, State.onDatabase]
    cases happly : op.apply s.db now with
    | error e => exact .refl _
    | ok db =>
      obtain ⟨hresumed, hsame⟩ := targetOp_store happly
      by_cases hclears : clearsTargets s.db op
      · exact .of_eq (by rw [hresumed hclears]; rfl)
      · exact .of_eq (by rw [hsame hclears])
  | startUpgrade nodeID id targetSHA256 deadline now => exact absurd rfl (ha _ _ _ _ _)
  | reconcileNodeUpgrades now => exact .of_rows (reconcileNodeUpgrades_rows s.db.toStore now)
  | enroll token fingerprint now =>
    simp only [Lifecycle.step]
    split
    · next nodeID store hconsume =>
      simp only [consumeEnrollmentToken, bind_eq_ok, require_eq_ok, pure_eq_ok, exists_const,
        Prod.mk.injEq] at hconsume
      obtain ⟨-, -, -, -, -, -, rfl⟩ := hconsume
      exact .of_eq rfl
    · exact .refl _
  | request fingerprint call =>
    simp only [Lifecycle.step]
    split
    · exact .refl _
    · exact .refl _
  | statement i now =>
    simp only [Lifecycle.step]
    split
    · next request statement rest hnext =>
      split
      · exact .refl _
      · unfold Lifecycle.State.execute
        cases hexecute : statement.execute s.db request.nodeID now with
        | error e => exact .refl _
        | ok db => exact statement_upgrades hexecute
    · exact .refl _

/-- The node accepts this certificate, unless it has been shut out. -/
def Certified (db : Store) (fingerprint n : String) : Prop :=
  ∃ node, db.nodes.find? n = some node ∧ node.certFingerprint = some fingerprint

/-- A certificate that has been signed before is accepted for a node only if it already was. -/
theorem Certified.before {s : Lifecycle.State} (hs : Lifecycle.Inv s) (a : Lifecycle.Action)
    {fingerprint n : String} (h : Certified (Lifecycle.step s a).db.toStore fingerprint n)
    (hsigned : fingerprint ∈ s.fingerprints) : Certified s.db.toStore fingerprint n := by
  obtain ⟨node', hnode', hfingerprint⟩ := h
  have hmoves := (step_effect s a hs.owned).moves n
  rcases (hmoves.secrets (card_of_find? hnode')).1 fingerprint hfingerprint with
    ⟨c, hc, hbefore⟩ | hdrawn
  · obtain ⟨node, hnode, rfl⟩ := Option.map_eq_some_iff.mp hc
    exact ⟨node, hnode, hbefore⟩
  · exact absurd hsigned (drawnFingerprints_new hdrawn)

end Upgrading

end SimpleCdn
