import SimpleCdn.Lifecycle.Identity

/-!
# Requests that outlive a revocation

A request is authenticated once and its statements are executed later, when its node may have
been revoked or uninstalled.  Of these statements only the one that records a certificate looks at
the status again.  The others write what they were given: a heartbeat the upgrade its edge
reports, a monitoring round the status of a node that has been put back into service, a report
the end of an upgrade that the revocation has failed.  `Spares` says statement by statement when
that does no harm; a run keeps revocations final exactly if every late statement meets it, and
then a revoked node can be prepared for its uninstall at any time.
-/

namespace SimpleCdn.Lifecycle

open Store Transition

/-- The node keeps its fingerprint and its status, no upgrade is recorded for it, and those of its
failed upgrades that a revocation has failed stay failed. -/
structure Leaves (revoked : List String) (n : String) (db db' : Store) : Prop where
  node : ∀ node, db.nodes.find? n = some node → ∃ node', db'.nodes.find? n = some node' ∧
    node'.certFingerprint = node.certFingerprint ∧ node'.status = node.status ∧
    (node.activeUpgradeID = "" → node'.activeUpgradeID = "")
  tasks : ∀ task ∈ db.nodeUpgradeTasks, task.nodeID = n → task.id ∈ revoked →
    task.status = .failed → ∃ task', db'.nodeUpgradeTasks.find? task.id = some task' ∧
      task'.status = .failed

/-- A step of a request that was under way when its node was shut out leaves the node alone. -/
def Harmless (s : State) (a : Action) : Prop :=
  ∀ i now request statement rest, a = .statement i now →
    s.next i = some (request, statement, rest) → request.late = true →
      Leaves s.revokedTasks request.nodeID s.db.toStore (step s a).db.toStore

/-- A revoked node can be prepared for its uninstall. -/
def Preparable (s : State) : Prop :=
  ∀ n node, s.db.nodes.find? n = some node → node.status = .revoked →
    ∀ affectedSiteIDs readyAt now, ∃ db,
      s.db.toStore.prepareNodeUninstall n affectedSiteIDs readyAt now = .ok db

/-- The monitoring round is accepted and pauses or resumes its node. -/
def switchesStatus (db : MonitoredStore) (node : Node) (round : MonitoringRound) : Prop :=
  (monitoringAutoPauseAfter ≤ db.consecutiveAbnormal node.id round ∧ node.status = .active) ∨
    (monitoringHealthyScore ≤ round.score ∧ node.monitorAutoPaused = true ∧
      node.status = .draining)

/-- The report completes the task. -/
def completes (db : Store) (task : NodeUpgradeTask) (report : NodeUpgradeReport) : Prop :=
  (report.status = .succeeded ∧ report.installedSHA256 = task.targetSHA256) ∨
    (report.status = .failed ∧ db.recoversInterrupted task report = true)

/-- When a late statement does no harm. -/
def Statement.Spares (db : MonitoredStore) (fingerprints revoked : List String) (nodeID : String) :
    Statement → Prop
  | .updateNode _ _ _ _ activeUpgradeID =>
    ∀ node, db.nodes.find? nodeID = some node →
      node.status ≠ .pending ∧ (activeUpgradeID = "" ∨ node.activeUpgradeID ≠ "")
  | .setNodeCertificate fingerprint =>
    fingerprint ∈ fingerprints ∨ ∀ node, db.nodes.find? nodeID = some node →
      node.status.retired = true ∨ db.toStore.hasActiveNodeUninstall nodeID = true
  | .recordMonitoringRound round =>
    db.roundMatches round = true → db.roundIsNewer nodeID round = true →
      ∀ node, db.nodes.find? nodeID = some node → ¬ switchesStatus db node round
  | .recordNodeUpgradeReport report =>
    ∀ task, db.nodeUpgradeTasks.find? report.taskID = some task → task.nodeID = nodeID →
      task.id ∈ revoked → task.status = .failed →
      (db.toStore.latestNodeUpgrade nodeID).any (fun latest => latest.id = task.id) = true →
        ¬ completes db.toStore task report
  | .reconcileNodeUpgrades =>
    ∀ task ∈ db.nodeUpgradeTasks, task.nodeID = nodeID → task.id ∈ revoked →
      db.toStore.recoverable task = false
  | .setNodeCapabilities _ | .recordReport _ | .reconcilePublishTasks => True

/-- The statement of a late request does no harm. -/
def SparesRevoked (s : State) (a : Action) : Prop :=
  ∀ i now request statement rest, a = .statement i now →
    s.next i = some (request, statement, rest) → request.late = true →
      statement.Spares s.db s.fingerprints s.revokedTasks request.nodeID

section

variable {db db' : Store} {revoked : List String} {n : String} {now : Time}

/-! ### Leaving a node alone -/

theorem Leaves.frame (hnodes : db'.nodes = db.nodes)
    (htasks : db'.nodeUpgradeTasks = db.nodeUpgradeTasks) : Leaves revoked n db db' := by
  constructor
  · intro node hnode
    rw [hnodes]
    exact ⟨node, hnode, rfl, rfl, id⟩
  · intro task htask _ _ hfailed
    rw [htasks]
    exact ⟨task, Table.find?_of_mem htask, hfailed⟩

theorem Leaves.refl : Leaves revoked n db db :=
  .frame rfl rfl

theorem leaves_updateNode {f : Node → Node} {hf : ∀ node, key (f node) = key node} :
    Leaves revoked n db (db.updateNode n f hf) ↔ ∀ node, db.nodes.find? n = some node →
      (f node).certFingerprint = node.certFingerprint ∧ (f node).status = node.status ∧
        (node.activeUpgradeID = "" → (f node).activeUpgradeID = "") := by
  have hfind : (db.updateNode n f hf).nodes.find? n = (db.nodes.find? n).map f := by
    rw [find?_updateNode, if_pos rfl]
  constructor
  · intro h node hnode
    obtain ⟨node', hnode', hkept⟩ := h.node node hnode
    rw [hfind, hnode, Option.map_some] at hnode'
    obtain rfl := Option.some.inj hnode'
    exact hkept
  · intro h
    refine ⟨fun node hnode => ⟨f node, ?_, h node hnode⟩, fun task htask _ _ hfailed =>
      ⟨task, Table.find?_of_mem htask, hfailed⟩⟩
    rw [hfind, hnode, Option.map_some]

theorem leaves_updateTasks {p : NodeUpgradeTask → Bool} {f : NodeUpgradeTask → NodeUpgradeTask}
    {hf : ∀ task, key (f task) = key task} :
    Leaves revoked n db { db with nodeUpgradeTasks := db.nodeUpgradeTasks.update p f hf } ↔
      ∀ task ∈ db.nodeUpgradeTasks, task.nodeID = n → task.id ∈ revoked →
        task.status = .failed → p task = true → (f task).status = .failed := by
  have hfind : ∀ task ∈ db.nodeUpgradeTasks,
      (db.nodeUpgradeTasks.update p f hf).find? task.id =
        some (if p task then f task else task) := by
    intro task htask
    have hfind : db.nodeUpgradeTasks.find? task.id = some task := Table.find?_of_mem htask
    rw [Table.find?_update, hfind]
    rfl
  constructor
  · intro h task htask hid hrevoked hfailed hp
    obtain ⟨task', htask', hfailed'⟩ := h.tasks task htask hid hrevoked hfailed
    rw [hfind task htask, if_pos hp] at htask'
    obtain rfl := Option.some.inj htask'
    exact hfailed'
  · intro h
    refine ⟨fun node hnode => ⟨node, hnode, rfl, rfl, id⟩, fun task htask hid hrevoked hfailed =>
      ⟨_, hfind task htask, ?_⟩⟩
    split
    · next hp => exact h task htask hid hrevoked hfailed hp
    · exact hfailed

theorem leaves_updateUpgrade {task : NodeUpgradeTask} {f : NodeUpgradeTask → NodeUpgradeTask}
    {hf : ∀ task, key (f task) = key task} (htask : task ∈ db.nodeUpgradeTasks) :
    Leaves revoked n db (db.updateUpgrade task.id f hf) ↔
      (task.nodeID = n → task.id ∈ revoked → task.status = .failed →
        (f task).status = .failed) := by
  rw [updateUpgrade, leaves_updateTasks]
  constructor
  · intro h hid hrevoked hfailed
    exact h task htask hid hrevoked hfailed (decide_eq_true rfl)
  · intro h row hrow hid hrevoked hfailed hp
    obtain rfl := Table.eq_of_key_eq hrow htask (of_decide_eq_true hp)
    exact h hid hrevoked hfailed

end

section

variable {db : MonitoredStore} {fingerprints revoked : List String} {nodeID : String} {now : Time}

/-! ### The statements -/

theorem setNodeCertificate_leaves {fingerprint : String} {store : Store}
    (hset : db.toStore.setNodeCertificate nodeID fingerprint now = .ok store)
    (hdrawn : ∀ node, db.nodes.find? nodeID = some node →
      node.certFingerprint = some fingerprint → fingerprint ∈ fingerprints)
    (hnew : fingerprint ∉ fingerprints) : ¬ Leaves revoked nodeID db.toStore store := by
  simp only [setNodeCertificate, bind_eq_ok, require_eq_ok, getNode_eq_ok, pure_eq_ok,
    exists_const] at hset
  obtain ⟨node, hnode, -, rfl⟩ := hset
  rw [leaves_updateNode]
  intro h
  exact hnew (hdrawn node hnode (h node hnode).1.symm)

/-- The round of a node that is not put into another status. -/
theorem monitoredStatus_eq_iff {status : NodeStatus} {autoPaused : Bool}
    {consecutiveAbnormal : Nat} :
    (monitoredStatus status autoPaused consecutiveAbnormal).1 = status ↔
      ¬ ((monitoringAutoPauseAfter ≤ consecutiveAbnormal ∧ status = .active) ∨
        (consecutiveAbnormal = 0 ∧ autoPaused = true ∧ status = .draining)) := by
  unfold monitoredStatus
  split
  · next hpause =>
    rw [hpause.2]
    simp [hpause.1]
  · next hpause =>
    split
    · next hresume =>
      rw [hresume.2.2]
      simp [hresume.1, hresume.2.1]
    · next hresume => simp [hpause, hresume]

theorem consecutiveAbnormal_eq_zero {round : MonitoringRound} :
    db.consecutiveAbnormal nodeID round = 0 ↔ monitoringHealthyScore ≤ round.score := by
  unfold MonitoredStore.consecutiveAbnormal
  split
  · next hlow => simp [hlow]
  · next hlow => simpa using hlow

theorem recordMonitoringRound_leaves {round : MonitoringRound} {store : Store}
    (hrecord : db.toStore.recordMonitoringRound nodeID (db.consecutiveAbnormal nodeID round) now =
      .ok store) :
    Leaves revoked nodeID db.toStore store ↔
      ∀ node, db.nodes.find? nodeID = some node → ¬ switchesStatus db node round := by
  simp only [recordMonitoringRound, bind_eq_ok, getNode_eq_ok, pure_eq_ok] at hrecord
  obtain ⟨-, -, rfl⟩ := hrecord
  rw [leaves_updateNode]
  refine forall_congr' fun node => forall_congr' fun hnode => ?_
  have hid : node.id = nodeID := Table.key_of_find? hnode
  rw [switchesStatus, hid, ← consecutiveAbnormal_eq_zero, ← monitoredStatus_eq_iff]
  simp

theorem recordNodeUpgradeReport_leaves {report : NodeUpgradeReport} {store : Store}
    (hrecord : db.toStore.recordNodeUpgradeReport nodeID report now = .ok store) :
    Leaves revoked nodeID db.toStore store ↔
      (Statement.recordNodeUpgradeReport report).Spares db fingerprints revoked nodeID := by
  simp only [recordNodeUpgradeReport, bind_eq_ok, orError_eq_ok, require_eq_ok, exists_const]
    at hrecord
  obtain ⟨task, htask, hid, hlatest, hrecord⟩ := hrecord
  have hmem := Table.mem_of_find? htask
  have hspares : (Statement.recordNodeUpgradeReport report).Spares db fingerprints revoked
      nodeID ↔ (task.id ∈ revoked → task.status = .failed →
        ¬ completes db.toStore task report) := by
    constructor
    · intro h hrevoked hfailed
      exact h task htask hid hrevoked hfailed hlatest
    · intro h task' htask' _ hrevoked hfailed _
      obtain rfl := Option.some.inj (htask.symm.trans htask')
      exact h hrevoked hfailed
  rw [hspares, completes]
  unfold reportUpgrade at hrecord
  split at hrecord
  · next happlying =>
    simp only [happlying, reduceCtorEq, false_and, or_self, not_false_eq_true, implies_true,
      iff_true]
    split at hrecord
    · next hactive =>
      obtain rfl := pure_eq_ok.mp hrecord
      rw [leaves_updateUpgrade hmem]
      intro _ _ hfailed
      rw [hfailed] at hactive
      cases hactive
    · obtain rfl := pure_eq_ok.mp hrecord
      exact .refl
  · next hsucceeded =>
    simp only [bind_eq_ok, require_eq_ok, exists_const, pure_eq_ok] at hrecord
    obtain ⟨hdigest, rfl⟩ := hrecord
    refine (leaves_updateUpgrade hmem).trans ?_
    simp [hid, hsucceeded, hdigest, finishUpgrade]
  · next hreported =>
    split at hrecord
    · next hdone =>
      obtain rfl := pure_eq_ok.mp hrecord
      simp only [hdone, reduceCtorEq, false_implies, implies_true, iff_true]
      exact .refl
    · split at hrecord
      · next hrecovers =>
        obtain rfl := pure_eq_ok.mp hrecord
        refine (leaves_updateUpgrade hmem).trans ?_
        simp [hid, hreported, hrecovers, finishUpgrade]
      · next hrecovers =>
        obtain rfl := pure_eq_ok.mp hrecord
        refine (leaves_updateUpgrade hmem).trans ?_
        simp [hreported, hrecovers, finishUpgrade]
  · cases hrecord

/-- Timeouts do not change what can be recovered. -/
theorem recoverable_timeOutUpgrades (store : Store) (task : NodeUpgradeTask) :
    (store.timeOutUpgrades now).recoverable task = store.recoverable task := by
  have hany : (store.timeOutUpgrades now).nodeUpgradeTasks.any (fun newer =>
      newer.nodeID = task.nodeID && decide (task.createdAt < newer.createdAt)) =
    store.nodeUpgradeTasks.any (fun newer =>
      newer.nodeID = task.nodeID && decide (task.createdAt < newer.createdAt)) := by
    simp only [timeOutUpgrades, Table.any, Table.update, List.any_map]
    congr 1
    funext newer
    dsimp only [Function.comp_apply]
    split
    · rfl
    · rfl
  rw [recoverable, hany]
  rfl

theorem reconcileNodeUpgrades_leaves :
    Leaves revoked nodeID db.toStore (db.toStore.reconcileNodeUpgrades now) ↔
      Statement.reconcileNodeUpgrades.Spares db fingerprints revoked nodeID := by
  have hkept : ∀ task ∈ db.nodeUpgradeTasks, task.status = .failed →
      task ∈ (db.toStore.timeOutUpgrades now).nodeUpgradeTasks := by
    intro task htask hfailed
    exact List.mem_map.mpr ⟨task, htask, if_neg (by simp [hfailed, NodeUpgradeStatus.active])⟩
  constructor
  · intro h task htask hid hrevoked
    by_contra hrecoverable
    have hrecoverable : db.toStore.recoverable task = true := by simpa using hrecoverable
    have hfailed : task.status = .failed := by
      simp only [recoverable, Bool.and_eq_true, decide_eq_true_eq] at hrecoverable
      exact hrecoverable.1.1.1
    obtain ⟨task', htask', hfailed'⟩ := h.tasks task htask hid hrevoked hfailed
    have hfind : (db.toStore.timeOutUpgrades now).nodeUpgradeTasks.find? task.id = some task :=
      Table.find?_of_mem (hkept task htask hfailed)
    rw [reconcileNodeUpgrades, recoverUpgrades, Table.find?_update, hfind, Option.map_some,
      if_pos ((recoverable_timeOutUpgrades _ _).trans hrecoverable)] at htask'
    obtain rfl := Option.some.inj htask'
    cases hfailed'
  · intro h
    refine ⟨fun node hnode => ⟨node, hnode, rfl, rfl, id⟩, fun task htask hid hrevoked hfailed => ?_⟩
    have hfind : (db.toStore.timeOutUpgrades now).nodeUpgradeTasks.find? task.id = some task :=
      Table.find?_of_mem (hkept task htask hfailed)
    refine ⟨task, ?_, hfailed⟩
    rw [reconcileNodeUpgrades, recoverUpgrades, Table.find?_update, hfind, Option.map_some,
      if_neg ?_]
    rw [recoverable_timeOutUpgrades, h task htask hid hrevoked]
    rintro ⟨⟩

/-- A statement leaves the node alone exactly if it does no harm. -/
theorem leaves_iff_spares {statement : Statement} {db' : MonitoredStore}
    (hdrawn : ∀ node fingerprint, db.nodes.find? nodeID = some node →
      node.certFingerprint = some fingerprint → fingerprint ∈ fingerprints)
    (hnew : statement.fingerprints.any fingerprints.contains = false)
    (hexecute : statement.execute db nodeID now = .ok db') :
    Leaves revoked nodeID db.toStore db'.toStore ↔
      statement.Spares db fingerprints revoked nodeID := by
  cases statement with
  | setNodeCapabilities capabilities =>
    obtain ⟨store, hset, rfl⟩ := onStore_eq_ok.mp hexecute
    simp only [setNodeCapabilities, bind_eq_ok, pure_eq_ok] at hset
    obtain ⟨-, -, rfl⟩ := hset
    rw [leaves_updateNode]
    exact ⟨fun _ => trivial, fun _ _ _ => ⟨rfl, rfl, id⟩⟩
  | recordReport report =>
    obtain ⟨store, hrecord, rfl⟩ := onStore_eq_ok.mp hexecute
    refine iff_of_true ?_ trivial
    cases report with
    | none =>
      obtain rfl := Except.ok.inj hrecord
      exact .refl
    | some report =>
      simp only [recordReport, recordPublishApply, bind_eq_ok, pure_eq_ok] at hrecord
      obtain ⟨-, -, rfl⟩ := hrecord
      exact .frame rfl rfl
  | updateNode appliedVersion lastError agentVersion agentSHA256 activeUpgradeID =>
    obtain ⟨store, hbeat, rfl⟩ := onStore_eq_ok.mp hexecute
    simp only [heartbeatNode, bind_eq_ok, pure_eq_ok] at hbeat
    obtain ⟨-, -, rfl⟩ := hbeat
    rw [Reconciling.heartbeatNode, leaves_updateNode]
    refine forall_congr' fun node => forall_congr' fun _ => ?_
    dsimp only
    constructor
    · rintro ⟨-, hstatus, hupgrade⟩
      refine ⟨fun hpending => ?_, ?_⟩
      · rw [if_pos hpending, hpending] at hstatus
        cases hstatus
      · by_cases hnone : node.activeUpgradeID = ""
        · exact .inl (hupgrade hnone)
        · exact .inr hnone
    · rintro ⟨hpending, hupgrade⟩
      refine ⟨rfl, if_neg hpending, fun hnone => ?_⟩
      exact hupgrade.resolve_right (not_not.mpr hnone)
  | reconcileNodeUpgrades =>
    obtain ⟨store, hstore, rfl⟩ := onStore_eq_ok.mp hexecute
    obtain rfl := Except.ok.inj hstore
    exact reconcileNodeUpgrades_leaves
  | reconcilePublishTasks =>
    obtain ⟨store, hstore, rfl⟩ := onStore_eq_ok.mp hexecute
    obtain rfl := Except.ok.inj hstore
    obtain ⟨tasks, rows, hframe⟩ := (reconcilePublishTasks_reconciles db.toStore now).frame
    rw [hframe]
    exact iff_of_true (.frame rfl rfl) trivial
  | setNodeCertificate fingerprint =>
    obtain ⟨store, hset, rfl⟩ := onStore_eq_ok.mp hexecute
    have hnew : fingerprint ∉ fingerprints := by simpa [Statement.fingerprints] using hnew
    refine iff_of_false (setNodeCertificate_leaves hset (fun node => hdrawn node fingerprint) hnew)
      fun hspares => ?_
    -- the certificate has been recorded, so the node was neither shut out nor being uninstalled
    simp only [setNodeCertificate, bind_eq_ok, require_eq_ok, getNode_eq_ok, exists_const] at hset
    obtain ⟨node, hnode, ⟨hlive, hfree⟩, -⟩ := hset
    rcases hspares.resolve_left hnew node hnode with hretired | hactive
    · rw [hlive] at hretired
      cases hretired
    · rw [hfree] at hactive
      cases hactive
  | recordMonitoringRound round =>
    simp only [Statement.execute, MonitoredStore.recordMonitoringRound, bind_eq_ok, require_eq_ok,
      pure_eq_ok, exists_const] at hexecute
    obtain ⟨hmatches, -, -, hnewer, store, hrecord, rfl⟩ := hexecute
    rw [recordMonitoringRound_leaves hrecord]
    exact ⟨fun h _ _ => h, fun h => h hmatches hnewer⟩
  | recordNodeUpgradeReport report =>
    obtain ⟨store, hrecord, rfl⟩ := onStore_eq_ok.mp hexecute
    exact recordNodeUpgradeReport_leaves hrecord

/-- A statement that fails would have done no harm. -/
theorem spares_of_error {statement : Statement} {e : StoreError}
    (hexecute : statement.execute db nodeID now = .error e) :
    statement.Spares db fingerprints revoked nodeID := by
  cases statement with
  | setNodeCapabilities | recordReport | reconcilePublishTasks => trivial
  | updateNode appliedVersion lastError agentVersion agentSHA256 activeUpgradeID =>
    intro node hnode
    have hget := getNode_eq_ok.mpr hnode
    rw [Statement.execute, heartbeatNode, hget] at hexecute
    cases hexecute
  | reconcileNodeUpgrades => cases hexecute
  | setNodeCertificate fingerprint =>
    refine .inr fun node hnode => ?_
    by_contra hopen
    simp only [not_or, Bool.not_eq_true] at hopen
    have hset : ∃ store, db.toStore.setNodeCertificate nodeID fingerprint now = .ok store := by
      simp only [setNodeCertificate, bind_eq_ok, require_eq_ok, getNode_eq_ok, pure_eq_ok,
        exists_const]
      exact ⟨_, node, hnode, hopen, rfl⟩
    obtain ⟨store, hset⟩ := hset
    rw [Statement.execute, hset] at hexecute
    cases hexecute
  | recordMonitoringRound round =>
    intro hmatches hnewer node hnode
    have hrecord : ∃ db', db.recordMonitoringRound nodeID round now = .ok db' := by
      simp only [MonitoredStore.recordMonitoringRound, recordMonitoringRound, bind_eq_ok,
        require_eq_ok, getNode_eq_ok, pure_eq_ok, exists_const]
      exact ⟨_, hmatches, node, hnode, hnewer, _, ⟨node, hnode, rfl⟩, rfl⟩
    obtain ⟨db', hrecord⟩ := hrecord
    rw [Statement.execute, hrecord] at hexecute
    cases hexecute
  | recordNodeUpgradeReport report =>
    intro task htask hid _ hfailed hlatest hcompletes
    have hreport : ∃ store, db.toStore.reportUpgrade task report now = .ok store := by
      unfold reportUpgrade
      rcases hcompletes with ⟨hsucceeded, hdigest⟩ | ⟨hreported, hrecovers⟩
      · simp only [hsucceeded, bind_eq_ok, require_eq_ok, exists_const]
        exact ⟨_, hdigest, rfl⟩
      · simp only [hreported, hfailed, hrecovers, reduceCtorEq, if_false, if_true]
        exact ⟨_, rfl⟩
    obtain ⟨store, hreport⟩ := hreport
    have hrecord : db.toStore.recordNodeUpgradeReport nodeID report now = .ok store := by
      simp only [recordNodeUpgradeReport, bind_eq_ok, orError_eq_ok, require_eq_ok, exists_const]
      exact ⟨task, htask, hid, hlatest, hreport⟩
    rw [Statement.execute, hrecord] at hexecute
    cases hexecute

theorem nodeRetired_updateNode {store : Store} {f : Node → Node}
    {hf : ∀ node, key (f node) = key node}
    (hretired : ∀ node, (f node).status.retired = node.status.retired) (n : String) :
    nodeRetired (store.updateNode nodeID f hf) n = nodeRetired store n := by
  rw [nodeRetired, nodeRetired, find?_updateNode]
  split
  · rw [Option.any_map]
    congr 1
    funext node
    exact hretired node
  · rfl

theorem monitoredStatus_retired (status : NodeStatus) (autoPaused : Bool)
    (consecutiveAbnormal : Nat) :
    (monitoredStatus status autoPaused consecutiveAbnormal).1.retired = status.retired := by
  unfold monitoredStatus
  split
  · next hpause => rw [hpause.2]; rfl
  · split
    · next hresume => rw [hresume.2.2]; rfl
    · rfl

/-- Statements do not shut a node out, nor let it back in. -/
theorem execute_retired {statement : Statement} {db' : MonitoredStore}
    (hexecute : statement.execute db nodeID now = .ok db') (n : String) :
    nodeRetired db'.toStore n = nodeRetired db.toStore n := by
  cases statement with
  | setNodeCapabilities capabilities =>
    obtain ⟨store, hset, rfl⟩ := onStore_eq_ok.mp hexecute
    simp only [setNodeCapabilities, bind_eq_ok, pure_eq_ok] at hset
    obtain ⟨-, -, rfl⟩ := hset
    refine nodeRetired_updateNode (fun node => ?_) n
    rfl
  | recordReport report =>
    obtain ⟨store, hrecord, rfl⟩ := onStore_eq_ok.mp hexecute
    cases report with
    | none =>
      obtain rfl := Except.ok.inj hrecord
      rfl
    | some report =>
      simp only [recordReport, recordPublishApply, bind_eq_ok, pure_eq_ok] at hrecord
      obtain ⟨-, -, rfl⟩ := hrecord
      rfl
  | updateNode appliedVersion lastError agentVersion agentSHA256 activeUpgradeID =>
    obtain ⟨store, hbeat, rfl⟩ := onStore_eq_ok.mp hexecute
    simp only [heartbeatNode, bind_eq_ok, pure_eq_ok] at hbeat
    obtain ⟨-, -, rfl⟩ := hbeat
    refine nodeRetired_updateNode (fun node => ?_) n
    dsimp only
    split
    · next hpending => rw [hpending]; rfl
    · rfl
  | reconcileNodeUpgrades =>
    obtain ⟨store, hstore, rfl⟩ := onStore_eq_ok.mp hexecute
    obtain rfl := Except.ok.inj hstore
    rfl
  | reconcilePublishTasks =>
    obtain ⟨store, hstore, rfl⟩ := onStore_eq_ok.mp hexecute
    obtain rfl := Except.ok.inj hstore
    obtain ⟨tasks, rows, hframe⟩ := (reconcilePublishTasks_reconciles db.toStore now).frame
    rw [hframe]
    rfl
  | setNodeCertificate fingerprint =>
    obtain ⟨store, hset, rfl⟩ := onStore_eq_ok.mp hexecute
    simp only [setNodeCertificate, bind_eq_ok, pure_eq_ok] at hset
    obtain ⟨-, -, -, -, rfl⟩ := hset
    refine nodeRetired_updateNode (fun node => ?_) n
    rfl
  | recordMonitoringRound round =>
    simp only [Statement.execute, MonitoredStore.recordMonitoringRound, recordMonitoringRound,
      bind_eq_ok, pure_eq_ok] at hexecute
    obtain ⟨-, -, -, -, -, -, store, ⟨-, -, rfl⟩, rfl⟩ := hexecute
    exact nodeRetired_updateNode (fun _ => monitoredStatus_retired _ _ _) n
  | recordNodeUpgradeReport report =>
    obtain ⟨store, hrecord, rfl⟩ := onStore_eq_ok.mp hexecute
    rcases recordNodeUpgradeReport_cases hrecord with rfl | ⟨task, -, f, hf, -, rfl⟩
    · rfl
    · rfl

end

section

variable {s : State} {a : Action}

/-! ### The steps of late requests -/

theorem Inv.drawn (hs : Inv s) {n : String} {node : Node} {fingerprint : String}
    (hnode : s.db.nodes.find? n = some node) (hfingerprint : node.certFingerprint = some fingerprint) :
    fingerprint ∈ s.fingerprints :=
  hs.fingerprints n _ fingerprint (card_of_find? hnode) hfingerprint

/-- A late statement leaves its node alone exactly if it does no harm. -/
theorem sparesRevoked_iff (hs : Inv s) : SparesRevoked s a ↔ Harmless s a := by
  refine forall_congr' fun i => forall_congr' fun now => forall_congr' fun request =>
    forall_congr' fun statement => forall_congr' fun rest => forall_congr' fun ha =>
    forall_congr' fun hnext => forall_congr' fun _ => ?_
  subst ha
  simp only [step, hnext]
  split
  · next hdrawn =>
    -- the fingerprint is not drawn again, and nothing happens
    refine iff_of_true ?_ .refl
    cases statement with
    | setNodeCertificate fingerprint =>
      exact .inl (by simpa [Statement.fingerprints] using hdrawn)
    | _ => cases hdrawn
  · next hnew =>
    unfold State.execute
    cases hexecute : statement.execute s.db request.nodeID now with
    | error e => exact iff_of_true (spares_of_error hexecute) .refl
    | ok db =>
      exact (leaves_iff_spares (fun node fingerprint hnode => hs.drawn hnode)
        (Bool.eq_false_iff.mpr hnew) hexecute).symm

theorem consumeEnrollmentToken_nodes {db db' : Store} {token n : String} {now : Time}
    (h : db.consumeEnrollmentToken token now = .ok (n, db')) :
    db'.nodes = db.nodes ∧ nodeRetired db n = false := by
  simp only [consumeEnrollmentToken, bind_eq_ok, require_eq_ok, orError_eq_ok, pure_eq_ok,
    exists_const, Prod.mk.injEq] at h
  obtain ⟨row, -, node, hnode, ⟨hlive, -⟩, rfl, rfl⟩ := h
  refine ⟨rfl, ?_⟩
  rw [nodeRetired, hnode]
  exact hlive

theorem createOrGetNodeUpgrade_nodes {db db' : Store} {nodeID id targetSHA256 : String}
    {deadline now : Time}
    (h : db.createOrGetNodeUpgrade nodeID id targetSHA256 deadline now = .ok db') :
    db'.nodes = db.nodes := by
  simp only [createOrGetNodeUpgrade, bind_eq_ok] at h
  obtain ⟨-, -, h⟩ := h
  split at h
  · obtain rfl := pure_eq_ok.mp h
    rfl
  · simp only [createNodeUpgrade, bind_eq_ok, pure_eq_ok] at h
    obtain ⟨-, -, -, -, -, -, -, -, db₁, hnew, tasks, -, rfl⟩ := h
    obtain ⟨-, rfl⟩ := newID_eq_ok.mp hnew
    rfl

/-- An operation marks the requests of the nodes that it shuts out. -/
theorem nodeOp_live {op : NodeOp} {now : Time}
    (hlive : ∀ request ∈ s.requests, request.late = false →
      nodeRetired s.db.toStore request.nodeID = false) {request : Request}
    (hmem : request ∈ (step s (.node op now)).requests) (hlate : request.late = false) :
    nodeRetired (step s (.node op now)).db.toStore request.nodeID = false := by
  simp only [step] at hmem ⊢
  by_cases hguard : (byEdge op || (tokensOf op).any s.tokens.contains) = true
  · rw [if_pos hguard] at hmem ⊢
    exact hlive request hmem hlate
  · rw [if_neg hguard] at hmem ⊢
    unfold State.nodeOp at hmem ⊢
    cases happly : s.db.applyNodeOp now op with
    | error e =>
      rw [happly] at hmem
      exact hlive request hmem hlate
    | ok db =>
      rw [happly] at hmem
      obtain ⟨request', -, rfl⟩ := List.mem_map.mp hmem
      exact (Bool.or_eq_false_iff.mp hlate).2

/-! ### Runs whose late statements do no harm -/

/-- No upgrade is recorded for a revoked node, and requests that are not late belong to nodes that
are not shut out. -/
structure Sealed (s : State) : Prop where
  inv : Inv s
  live : ∀ request ∈ s.requests, request.late = false →
    nodeRetired s.db.toStore request.nodeID = false
  quiet : ∀ n c, card s.db.toStore n = some c → c.Quiet

theorem sealed_initial : Sealed initial where
  inv := inv_initial
  live := nofun
  quiet := fun n c hc => by
    rw [card_initial] at hc
    cases hc

/-- Only operations on nodes shut a node out. -/
theorem nodeRetired_step (hnode : ∀ op now, a ≠ .node op now) (n : String) :
    nodeRetired (step s a).db.toStore n = nodeRetired s.db.toStore n := by
  cases a with
  | node op now => exact absurd rfl (hnode op now)
  | monitoringTarget op now =>
    simp only [step, State.onDatabase]
    cases happly : op.apply s.db now with
    | error e => rfl
    | ok db =>
      obtain ⟨hresumed, hsame⟩ := targetOp_store happly
      dsimp only
      by_cases hclears : clearsTargets s.db op
      · rw [hresumed hclears, nodeRetired, nodeRetired, resumeAutoPaused, Table.find?_update,
          Option.any_map]
        congr 1
        funext node
        split
        · dsimp only
          split
          · next hdraining => rw [hdraining]; rfl
          · rfl
        · rfl
      · rw [hsame hclears]
  | startUpgrade nodeID id targetSHA256 deadline now =>
    simp only [step, State.onDatabase]
    cases hcreate : onStore s.db
        (s.db.toStore.createOrGetNodeUpgrade nodeID id targetSHA256 deadline now) with
    | error e => rfl
    | ok db =>
      obtain ⟨store, hstore, rfl⟩ := onStore_eq_ok.mp hcreate
      rw [nodeRetired, nodeRetired, createOrGetNodeUpgrade_nodes hstore]
  | reconcileNodeUpgrades now => rfl
  | enroll token fingerprint now =>
    simp only [step]
    split
    · next nodeID store hconsume =>
      rw [nodeRetired, nodeRetired, State.enqueue, (consumeEnrollmentToken_nodes hconsume).1]
    · rfl
  | request fingerprint call =>
    simp only [step]
    split
    · rfl
    · rfl
  | statement i now =>
    simp only [step]
    split
    · split
      · rfl
      · next request statement rest hnext hnew =>
        unfold State.execute
        split
        · next db hexecute => exact execute_retired hexecute n
        · rfl
    · rfl

/-- The requests that are not late after a step were under way before it, or are admitted by it. -/
theorem requests_step (hnode : ∀ op now, a ≠ .node op now) {request : Request}
    (hmem : request ∈ (step s a).requests) (hlate : request.late = false) :
    (∃ request' ∈ s.requests, request'.late = false ∧ request'.nodeID = request.nodeID) ∨
      nodeRetired s.db.toStore request.nodeID = false := by
  cases a with
  | node op now => exact absurd rfl (hnode op now)
  | monitoringTarget op now =>
    simp only [step, State.onDatabase] at hmem
    split at hmem
    · exact .inl ⟨request, hmem, hlate, rfl⟩
    · exact .inl ⟨request, hmem, hlate, rfl⟩
  | startUpgrade nodeID id targetSHA256 deadline now =>
    simp only [step, State.onDatabase] at hmem
    split at hmem
    · exact .inl ⟨request, hmem, hlate, rfl⟩
    · exact .inl ⟨request, hmem, hlate, rfl⟩
  | reconcileNodeUpgrades now => exact .inl ⟨request, hmem, hlate, rfl⟩
  | enroll token fingerprint now =>
    simp only [step] at hmem
    split at hmem
    · next nodeID store hconsume =>
      rcases List.mem_append.mp hmem with hmem | hmem
      · exact .inl ⟨request, hmem, hlate, rfl⟩
      · obtain rfl := List.mem_singleton.mp hmem
        exact .inr (consumeEnrollmentToken_nodes hconsume).2
    · exact .inl ⟨request, hmem, hlate, rfl⟩
  | request fingerprint call =>
    simp only [step] at hmem
    split at hmem
    · next nodeID hauthenticated =>
      rcases List.mem_append.mp hmem with hmem | hmem
      · exact .inl ⟨request, hmem, hlate, rfl⟩
      · obtain rfl := List.mem_singleton.mp hmem
        obtain ⟨node, hnode, -, hlive⟩ := nodeIDByFingerprint_eq_ok hauthenticated
        refine .inr ?_
        rw [nodeRetired, hnode]
        exact hlive
    · exact .inl ⟨request, hmem, hlate, rfl⟩
  | statement i now =>
    simp only [step] at hmem
    split at hmem
    · next current statement rest hnext =>
      split at hmem
      · exact .inl ⟨request, hmem, hlate, rfl⟩
      · unfold State.execute at hmem
        split at hmem
        · rcases List.mem_or_eq_of_mem_set hmem with hmem | rfl
          · exact .inl ⟨request, hmem, hlate, rfl⟩
          · exact .inl ⟨current, (next_eq_some hnext).1, hlate, rfl⟩
        · exact .inl ⟨request, List.mem_of_mem_eraseIdx hmem, hlate, rfl⟩
    · exact .inl ⟨request, hmem, hlate, rfl⟩

theorem Sealed.step (hs : Sealed s) (hspares : SparesRevoked s a) :
    Sealed (Lifecycle.step s a) := by
  have heffect := step_effect s a hs.inv.owned
  refine ⟨hs.inv.step a, fun request hmem hlate => ?_, fun n c' hc' => ?_⟩
  · by_cases hnode : ∃ op now, a = .node op now
    · obtain ⟨op, now, rfl⟩ := hnode
      exact nodeOp_live hs.live hmem hlate
    · have hnode : ∀ op now, a ≠ .node op now := fun op now ha => hnode ⟨op, now, ha⟩
      rw [nodeRetired_step hnode]
      rcases requests_step hnode hmem hlate with ⟨request', hmem', hlate', hid⟩ | hlive
      · rw [← hid]
        exact hs.live request' hmem' hlate'
      · exact hlive
  · have hmove := heffect.moves n
    rw [hc'] at hmove
    generalize hc : card s.db.toStore n = o at hmove
    cases hmove with
    | keep => exact hs.quiet n c' hc
    | create => exact Card.new_quiet
    | @step c _ hstep =>
      refine (hs.quiet n c hc).step hstep fun upgradeID hreport hretired hnone => ?_
      obtain ⟨i, now, request, rest, appliedVersion, lastError, agentVersion, agentSHA256, rfl,
        hnext, rfl⟩ := hreport
      obtain ⟨node, hnode, rfl⟩ := Option.map_eq_some_iff.mp hc
      cases hlate : request.late with
      | true =>
        have hbeat := hspares i now request _ rest rfl hnext hlate node hnode
        exact hbeat.2.resolve_right (not_not.mpr hnone)
      | false =>
        have hlive := hs.live request ((next_eq_some hnext).1) hlate
        rw [nodeRetired, hnode, Option.any_some, show node.status.retired = true from hretired]
          at hlive
        cases hlive

theorem Sealed.preparable (hs : Sealed s) : Preparable s := by
  intro n node hnode hrevoked affectedSiteIDs readyAt now
  have hcard := card_of_find? hnode
  have hnone : node.activeUpgradeID = "" := (hs.quiet n _ hcard).revoked hrevoked
  have hidle : s.db.toStore.hasActiveNodeUpgrade n = false := by
    by_contra hactive
    have hactive : s.db.toStore.hasActiveNodeUpgrade n = true := by simpa using hactive
    have hlive := ((hs.inv.closed n _ hcard).upgrading hactive).2
    rw [cardOf, hrevoked] at hlive
    cases hlive
  simp only [prepareNodeUninstall, bind_eq_ok, require_eq_ok, getNode_eq_ok, exists_const]
  by_cases hactive : s.db.toStore.hasActiveNodeUninstall n = true
  · exact ⟨s.db.toStore, node, hnode, hidle, hnone, .inr hrevoked, if_pos hactive⟩
  · exact ⟨_, node, hnode, hidle, hnone, .inr hrevoked, if_neg hactive⟩

/-- Revocations are final in a run, and revoked nodes can always be prepared for their uninstall,
exactly if every late statement spares what the revocation has ended. -/
theorem harmless_iff_sparesRevoked (as : List Action) :
    Along step Harmless initial as ∧ Always step Preparable initial as ↔
      Along step SparesRevoked initial as := by
  have hinv : ∀ s a, Inv s → Inv (step s a) := fun s a hs => hs.step a
  have hiff : ∀ s a, Inv s → (SparesRevoked s a ↔ Harmless s a) := fun s a => sparesRevoked_iff
  have hsealed : ∀ s a, Sealed s → SparesRevoked s a → Sealed (step s a) :=
    fun s a hs => hs.step
  constructor
  · rintro ⟨h, -⟩
    exact h.of_invariant (fun s a hs _ => hinv s a hs) (fun s a hs => (hiff s a hs).mpr)
      inv_initial
  · intro h
    refine ⟨h.of_invariant (fun s a hs _ => hinv s a hs) (fun s a hs => (hiff s a hs).mp)
      inv_initial, ?_⟩
    exact (h.always hsealed sealed_initial).mono fun s hs => hs.preparable

end

/-- A heartbeat with an upgrade is under way when its node is revoked, and goes on afterwards. -/
def revokedDuringHeartbeat : List Action :=
  enrolled ++
    [.request "fingerprint" (.heartbeat [] 0 "" none "" "" "upgrade"),
      .node (.setNodeStatus "node" .revoked) 5, .statement 1 6, .statement 1 6, .statement 1 6]

/-- The revoked node cannot be uninstalled. -/
theorem revokedDuringHeartbeat_not_preparable :
    ¬ (Along step Harmless initial revokedDuringHeartbeat ∧
      Always step Preparable initial revokedDuringHeartbeat) := by
  rintro ⟨-, h⟩
  have hrevoked : ((run step initial revokedDuringHeartbeat).db.nodes.find? "node").map
      Node.status = some .revoked := by decide +kernel
  have hrefused : ((run step initial revokedDuringHeartbeat).db.toStore.prepareNodeUninstall
      "node" [] 82 7).isOk = false := by decide +kernel
  obtain ⟨node, hnode, hstatus⟩ := Option.map_eq_some_iff.mp hrevoked
  obtain ⟨db, hprepare⟩ := h.last "node" node hnode hstatus [] 82 7
  rw [hprepare] at hrefused
  cases hrefused

end SimpleCdn.Lifecycle
