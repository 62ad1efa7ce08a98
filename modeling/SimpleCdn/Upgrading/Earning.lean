import SimpleCdn.Upgrading.Tasks

/-!
# What completes an upgrade task

Every operation of the control plane besides the creation of a task leaves a succeeded task
succeeded, and completes another one only for a reason: `Earns` says which tasks an operation may
complete, and which digests it may bring to a node.
-/

namespace SimpleCdn

namespace Store

/-- The task keeps its row; it is completed only if it meets `P`, and then for good. -/
structure UpgradeEarns (P : NodeUpgradeTask → Prop) (task task' : NodeUpgradeTask) : Prop where
  kept : UpgradeKept task task'
  absorbed : task.status = .succeeded → task'.status = .succeeded
  earned : task'.status = .succeeded → task.status = .succeeded ∨ P task

/-- Tasks are completed only if they meet `P`, and a digest of a node is one it had or one that
`D` allows. -/
structure Earns (P : NodeUpgradeTask → Prop) (D : String → String → Prop) (db db' : Store) :
    Prop where
  tasks : ∀ task' ∈ db'.nodeUpgradeTasks, ∃ task ∈ db.nodeUpgradeTasks, UpgradeEarns P task task'
  nodes : ∀ node' ∈ db'.nodes, node'.agentSHA256 = "" ∨ D node'.id node'.agentSHA256 ∨
    ∃ node ∈ db.nodes, node.id = node'.id ∧ node.agentSHA256 = node'.agentSHA256
  issued : db.issuedIDs ⊆ db'.issuedIDs

section

variable {db db' : Store} {P Q : NodeUpgradeTask → Prop} {D : String → String → Prop}
  {nodeID : String} {now : Time}

theorem UpgradeEarns.refl (P : NodeUpgradeTask → Prop) (task : NodeUpgradeTask) :
    UpgradeEarns P task task :=
  ⟨.refl task, id, .inl⟩

theorem nodes_kept (D : String → String → Prop) (h : db'.nodes = db.nodes) :
    ∀ node' ∈ db'.nodes, node'.agentSHA256 = "" ∨ D node'.id node'.agentSHA256 ∨
      ∃ node ∈ db.nodes, node.id = node'.id ∧ node.agentSHA256 = node'.agentSHA256 := by
  intro node' hnode'
  rw [h] at hnode'
  exact .inr (.inr ⟨node', hnode', rfl, rfl⟩)

theorem tasks_kept (P : NodeUpgradeTask → Prop) (h : db'.nodeUpgradeTasks = db.nodeUpgradeTasks) :
    ∀ task' ∈ db'.nodeUpgradeTasks, ∃ task ∈ db.nodeUpgradeTasks, UpgradeEarns P task task' := by
  intro task' htask'
  rw [h] at htask'
  exact ⟨task', htask', .refl P task'⟩

theorem Earns.of_eq (htasks : db'.nodeUpgradeTasks = db.nodeUpgradeTasks)
    (hnodes : db'.nodes = db.nodes) (hissued : db'.issuedIDs = db.issuedIDs) :
    Earns P D db db' where
  tasks := tasks_kept P htasks
  nodes := nodes_kept D hnodes
  issued := by rw [hissued]; exact List.Subset.refl _

theorem Earns.refl (db : Store) : Earns P D db db :=
  .of_eq rfl rfl rfl

/-- An operation that sets other fields of the nodes a condition selects. -/
theorem Earns.of_settings {p : Node → Bool} {f : Node → Node} (hf : ∀ node, key (f node) = key node)
    (htasks : db'.nodeUpgradeTasks = db.nodeUpgradeTasks)
    (hnodes : db'.nodes = db.nodes.update p f hf) (hissued : db'.issuedIDs = db.issuedIDs)
    (hdigest : ∀ node, (f node).agentSHA256 = node.agentSHA256) : Earns P D db db' where
  tasks := tasks_kept P htasks
  nodes := by
    intro node' hnode'
    rw [hnodes] at hnode'
    obtain ⟨node, hnode, rfl⟩ := List.mem_map.mp hnode'
    right
    right
    split
    · have hid : (f node).id = node.id := hf node
      exact ⟨node, hnode, hid.symm, (hdigest node).symm⟩
    · exact ⟨node, hnode, rfl, rfl⟩
  issued := by rw [hissued]; exact List.Subset.refl _

/-- An operation that sets fields of the tasks a condition selects. -/
theorem Earns.of_update {p : NodeUpgradeTask → Bool} {f : NodeUpgradeTask → NodeUpgradeTask}
    (hf : ∀ task, key (f task) = key task)
    (htasks : db'.nodeUpgradeTasks = db.nodeUpgradeTasks.update p f hf)
    (hnodes : ∀ node' ∈ db'.nodes, node'.agentSHA256 = "" ∨ D node'.id node'.agentSHA256 ∨
      ∃ node ∈ db.nodes, node.id = node'.id ∧ node.agentSHA256 = node'.agentSHA256)
    (hissued : db'.issuedIDs = db.issuedIDs)
    (h : ∀ task ∈ db.nodeUpgradeTasks, p task = true → UpgradeEarns P task (f task)) :
    Earns P D db db' where
  tasks := by
    intro task' htask'
    rw [htasks] at htask'
    obtain ⟨task, htask, rfl⟩ := List.mem_map.mp htask'
    refine ⟨task, htask, ?_⟩
    split
    · next hp => exact h task htask hp
    · exact .refl P task
  nodes := hnodes
  issued := by rw [hissued]; exact List.Subset.refl _

/-- A running task that ends without success. -/
theorem UpgradeEarns.of_active {task task' : NodeUpgradeTask} (hkept : UpgradeKept task task')
    (hactive : task.status.active = true) (hfailed : task'.status ≠ .succeeded) :
    UpgradeEarns P task task' where
  kept := hkept
  absorbed := by
    intro hsucceeded
    rw [hsucceeded] at hactive
    cases hactive
  earned := fun hsucceeded => absurd hsucceeded hfailed

theorem setNodeStatus_earns {status : NodeStatus}
    (h : db.setNodeStatus nodeID status now = .ok db') : Earns P D db db' := by
  simp only [setNodeStatus, bind_eq_ok, require_eq_ok, exists_const] at h
  obtain ⟨-, -, -, -, -, h⟩ := h
  split at h
  · obtain rfl := pure_eq_ok.mp h
    have hnodes : Earns P D db (db.updateNode nodeID fun node =>
        { node with
          status := .revoked, monitorAutoPaused := false, certFingerprint := none,
          activeUpgradeID := "", updatedAt := now }) :=
      .of_settings (by intro _; rfl) rfl rfl rfl fun _ => rfl
    refine .of_update (by intro _; rfl) rfl hnodes.nodes rfl fun task _ hp => ?_
    rw [Bool.and_eq_true] at hp
    exact .of_active ⟨rfl, rfl, rfl, rfl, (by rintro ⟨⟩)⟩ hp.2 (by rintro ⟨⟩)
  · obtain rfl := pure_eq_ok.mp h
    exact .of_settings (by intro _; rfl) rfl rfl rfl fun _ => rfl

theorem deleteNode_earns (h : db.deleteNode nodeID = .ok db') : Earns P D db db' := by
  simp only [deleteNode, bind_eq_ok, require_eq_ok, pure_eq_ok, exists_const] at h
  obtain ⟨-, -, -, -, rfl⟩ := h
  refine ⟨fun task htask => ?_, fun node hnode => ?_, List.Subset.refl _⟩
  · exact ⟨task, (Table.mem_delete.mp htask).1, .refl P task⟩
  · exact .inr (.inr ⟨node, (Table.mem_delete.mp hnode).1, rfl, rfl⟩)

theorem startNodeUninstall_earns {token : String}
    (h : db.startNodeUninstall token now = .ok db') : Earns P D db db' := by
  simp only [startNodeUninstall, bind_eq_ok] at h
  obtain ⟨job, -, h⟩ := h
  split at h
  · rw [← pure_eq_ok.mp h]
    exact .refl db
  · rw [← pure_eq_ok.mp h]
    exact .of_eq rfl rfl rfl
  · rw [← pure_eq_ok.mp h]
    exact .of_settings (by intro _; rfl) rfl rfl rfl fun _ => rfl
  · rw [← pure_eq_ok.mp h]
    exact .of_settings (by intro _; rfl) rfl rfl rfl fun _ => rfl
  · rw [← pure_eq_ok.mp h]
    exact .of_settings (by intro _; rfl) rfl rfl rfl fun _ => rfl
  · cases h

theorem failNodeUninstall_earns {token detail : String}
    (h : db.failNodeUninstall token detail now = .ok db') : Earns P D db db' := by
  simp only [failNodeUninstall, bind_eq_ok] at h
  obtain ⟨job, -, h⟩ := h
  split at h
  · rw [← pure_eq_ok.mp h]
    exact .refl db
  · rw [← pure_eq_ok.mp h]
    exact .refl db
  · rw [← pure_eq_ok.mp h]
    exact .of_settings (by intro _; rfl) rfl rfl rfl fun _ => rfl
  · rw [← pure_eq_ok.mp h]
    exact .of_settings (by intro _; rfl) rfl rfl rfl fun _ => rfl
  · cases h

theorem finishNodeUninstall_earns {status : NodeUninstallJobStatus} {forced : Bool}
    {detail : String} :
    Earns P D db (db.finishNodeUninstall nodeID status forced detail now) :=
  .of_settings (by intro _; rfl) rfl rfl rfl fun _ => rfl

theorem completeNodeUninstall_earns {token : String}
    (h : db.completeNodeUninstall token now = .ok db') : Earns P D db db' := by
  simp only [completeNodeUninstall, bind_eq_ok] at h
  obtain ⟨job, -, h⟩ := h
  split at h
  · rw [← pure_eq_ok.mp h]
    exact .refl db
  · simp only [bind_eq_ok, pure_eq_ok] at h
    obtain ⟨-, -, rfl⟩ := h
    exact finishNodeUninstall_earns
  · rw [← pure_eq_ok.mp h]
    exact finishNodeUninstall_earns
  · cases h

/-- What administrators and the uninstall script do completes no task. -/
theorem nodeOp_earns {op : NodeOp} (hedge : Lifecycle.byEdge op = false)
    (h : op.apply db now = .ok db') : Earns P D db db' := by
  cases op with
  | createNode id name publicIPv4 =>
    obtain ⟨⟨node, db₁⟩, hcreate, rfl⟩ := map_eq_ok.mp h
    simp only [createNode, bind_eq_ok, require_eq_ok, orError_eq_ok, pure_eq_ok, exists_const,
      Prod.mk.injEq] at hcreate
    obtain ⟨-, db₂, hnew, -, nodes, hinsert, -, rfl⟩ := hcreate
    obtain ⟨-, rfl⟩ := newID_eq_ok.mp hnew
    refine ⟨tasks_kept P rfl, fun node hnode => ?_, List.subset_cons_self _ _⟩
    rcases (Table.mem_of_insert? hinsert).mp hnode with hold | rfl
    · exact .inr (.inr ⟨node, hold, rfl, rfl⟩)
    · exact .inl rfl
  | setCacheMaxSizeGB nodeID size =>
    simp only [NodeOp.apply, setNodeCacheMaxSizeGB, bind_eq_ok, pure_eq_ok] at h
    obtain ⟨-, -, -, -, rfl⟩ := h
    exact .of_settings (by intro _; rfl) rfl rfl rfl fun _ => rfl
  | setNginxCapacity nodeID capacity =>
    simp only [NodeOp.apply, setNodeNginxCapacity, bind_eq_ok, pure_eq_ok] at h
    obtain ⟨-, -, -, -, rfl⟩ := h
    exact .of_settings (by intro _; rfl) rfl rfl rfl fun _ => rfl
  | setCapabilities nodeID capabilities =>
    simp only [NodeOp.apply, setNodeCapabilities, bind_eq_ok, pure_eq_ok] at h
    obtain ⟨-, -, rfl⟩ := h
    exact .of_settings (by intro _; rfl) rfl rfl rfl fun _ => rfl
  | createEnrollmentToken nodeID token expiresAt =>
    simp only [NodeOp.apply, createEnrollmentToken, bind_eq_ok, pure_eq_ok] at h
    obtain ⟨-, -, -, -, -, -, tokens, -, rfl⟩ := h
    exact .of_eq rfl rfl rfl
  | setNodeStatus nodeID status => exact setNodeStatus_earns h
  | recordMonitoringRound | heartbeat => cases hedge
  | prepareUninstall nodeID affectedSiteIDs readyAt =>
    simp only [NodeOp.apply, prepareNodeUninstall, bind_eq_ok, require_eq_ok, exists_const] at h
    obtain ⟨node, -, -, -, -, h⟩ := h
    split at h
    · rw [← pure_eq_ok.mp h]
      exact .refl db
    · rw [← pure_eq_ok.mp h]
      exact .of_eq rfl rfl rfl
  | issueUninstallToken nodeID token expiresAt =>
    simp only [NodeOp.apply, issueNodeUninstallToken, bind_eq_ok, require_eq_ok, pure_eq_ok,
      exists_const] at h
    obtain ⟨-, -, -, -, rfl⟩ := h
    exact .of_eq rfl rfl rfl
  | startUninstall token => exact startNodeUninstall_earns h
  | failUninstall token detail => exact failNodeUninstall_earns h
  | completeUninstall token => exact completeNodeUninstall_earns h
  | forceCompleteUninstall nodeID detail =>
    simp only [NodeOp.apply, forceCompleteNodeUninstall, bind_eq_ok, require_eq_ok, pure_eq_ok,
      exists_const] at h
    obtain ⟨-, -, -, rfl⟩ := h
    exact finishNodeUninstall_earns
  | cancelUninstall nodeID =>
    simp only [NodeOp.apply, cancelNodeUninstall, bind_eq_ok, require_eq_ok, pure_eq_ok,
      exists_const] at h
    obtain ⟨-, -, -, -, rfl⟩ := h
    exact .of_eq rfl rfl rfl
  | deleteNode nodeID =>
    simp only [NodeOp.apply, bind_eq_ok] at h
    obtain ⟨-, -, -, -, hdelete⟩ := h
    exact deleteNode_earns hdelete

theorem failActiveNodeUpgrade_earns (db : Store) (nodeID code detail : String) (now : Time) :
    Earns P D db (db.failActiveNodeUpgrade nodeID code detail now) := by
  refine .of_update (by intro _; rfl) rfl (nodes_kept D rfl) rfl fun task _ hp => ?_
  rw [Bool.and_eq_true] at hp
  exact .of_active ⟨rfl, rfl, rfl, rfl, nofun⟩ hp.2 nofun

/-! ### Reports and recoveries -/

/-- The node runs the artifact of the task. -/
def runsTarget (db : Store) (task : NodeUpgradeTask) : Prop :=
  ∃ node ∈ db.nodes, node.id = task.nodeID ∧ node.agentSHA256 = task.targetSHA256

theorem runsTarget_of_any {task : NodeUpgradeTask} {p : Node → Bool}
    (h : (db.nodes.find? task.nodeID).any p = true)
    (hp : ∀ node, p node = true → node.agentSHA256 = task.targetSHA256) :
    db.runsTarget task := by
  obtain ⟨node, hnode, hmatch⟩ := Option.any_eq_true _ _ |>.mp h
  exact ⟨node, Table.mem_of_find? hnode, Table.key_of_find? hnode, hp node hmatch⟩

theorem timeOutUpgrades_earns (db : Store) (now : Time) : Earns P D db (db.timeOutUpgrades now) := by
  refine .of_update (by intro _; rfl) rfl (nodes_kept D rfl) rfl fun task _ hp => ?_
  rw [Bool.and_eq_true] at hp
  exact .of_active ⟨rfl, rfl, rfl, rfl, nofun⟩ hp.1 nofun

/-- A failed task is completed for a node that runs its artifact. -/
theorem recoverUpgrades_earns (db : Store) (now : Time) :
    Earns db.runsTarget D db (db.recoverUpgrades now) := by
  refine .of_update (by intro _; rfl) rfl (nodes_kept D rfl) rfl fun task _ hp => ?_
  simp only [recoverable, Bool.and_eq_true] at hp
  refine ⟨⟨rfl, rfl, rfl, rfl, (by rintro ⟨⟩)⟩, fun _ => rfl, fun _ => .inr ?_⟩
  refine runsTarget_of_any hp.2 fun node hnode => ?_
  rw [Bool.and_eq_true, decide_eq_true_eq] at hnode
  exact hnode.1

theorem UpgradeEarns.trans {task task' task'' : NodeUpgradeTask} (h : UpgradeEarns P task task')
    (h' : UpgradeEarns Q task' task'') (hQ : ∀ task task', UpgradeKept task task' → Q task' →
      P task) : UpgradeEarns P task task'' where
  kept := h.kept.trans h'.kept
  absorbed := fun hsucceeded => h'.absorbed (h.absorbed hsucceeded)
  earned := by
    intro hsucceeded
    rcases h'.earned hsucceeded with hbefore | hearned
    · exact h.earned hbefore
    · exact .inr (hQ task task' h.kept hearned)

theorem reconcileNodeUpgrades_earns (db : Store) (now : Time) :
    Earns db.runsTarget D db (db.reconcileNodeUpgrades now) := by
  have htimeOut := timeOutUpgrades_earns (P := db.runsTarget) (D := D) db now
  have hrecover := recoverUpgrades_earns (D := D) (db.timeOutUpgrades now) now
  refine ⟨fun task'' htask'' => ?_, nodes_kept D rfl, List.Subset.refl _⟩
  obtain ⟨task', htask', hsecond⟩ := hrecover.tasks task'' htask''
  obtain ⟨task, htask, hfirst⟩ := htimeOut.tasks task' htask'
  refine ⟨task, htask, hfirst.trans hsecond ?_⟩
  rintro task task' hkept ⟨node, hnode, hid, hdigest⟩
  exact ⟨node, hnode, hid.trans hkept.nodeID, hdigest.trans hkept.target⟩

/-- What completes a task when a report comes in. -/
def reportCompletes (db : Store) (nodeID : String) (report : NodeUpgradeReport)
    (task : NodeUpgradeTask) : Prop :=
  task.nodeID = nodeID ∧ task.id = report.taskID ∧
    (report.status = .succeeded ∧ report.installedSHA256 = task.targetSHA256 ∨
      task.targetSHA256 = "" ∨ db.runsTarget task)

/-- A report changes the newest task of the node only, and completes it for a reason. -/
theorem recordNodeUpgradeReport_update {report : NodeUpgradeReport}
    (h : db.recordNodeUpgradeReport nodeID report now = .ok db') :
    db' = db ∨ ∃ task ∈ db.nodeUpgradeTasks, ∃ f hf,
      db.latestNodeUpgrade nodeID = some task ∧ task.nodeID = nodeID ∧
      UpgradeEarns (db.reportCompletes nodeID report) task (f task) ∧
      db' = db.updateUpgrade task.id f hf := by
  simp only [recordNodeUpgradeReport, bind_eq_ok, orError_eq_ok, require_eq_ok, exists_const]
    at h
  obtain ⟨task, htask, hn, hlatest, h⟩ := h
  have hmem := Table.mem_of_find? htask
  have hid : task.id = report.taskID := Table.key_of_find? htask
  have hnewest : db.latestNodeUpgrade nodeID = some task := by
    obtain ⟨latest, hfound, hsame⟩ := Option.any_eq_true _ _ |>.mp hlatest
    have hmember := (List.mem_filter.mp (List.argmax_mem hfound)).1
    rw [hfound, Table.eq_of_key_eq hmember hmem (of_decide_eq_true hsame)]
  unfold reportUpgrade at h
  split at h
  · split at h
    · next hactive =>
      refine .inr ⟨task, hmem, _, _, hnewest, hn, ?_, (pure_eq_ok.mp h).symm⟩
      exact .of_active ⟨rfl, rfl, rfl, rfl, fun _ => hactive⟩ hactive (by rintro ⟨⟩)
    · exact .inl (pure_eq_ok.mp h).symm
  · next hsucceeded =>
    simp only [bind_eq_ok, require_eq_ok, pure_eq_ok, exists_const] at h
    obtain ⟨hdigest, rfl⟩ := h
    refine .inr ⟨task, hmem, _, _, hnewest, hn, ?_, rfl⟩
    exact ⟨⟨rfl, rfl, rfl, rfl, (by rintro ⟨⟩)⟩, fun _ => rfl,
      fun _ => .inr ⟨hn, hid, .inl ⟨hsucceeded, hdigest⟩⟩⟩
  · split at h
    · exact .inl (pure_eq_ok.mp h).symm
    · next hopen =>
      split at h
      · next hrecovers =>
        refine .inr ⟨task, hmem, _, _, hnewest, hn, ?_, (pure_eq_ok.mp h).symm⟩
        refine ⟨⟨rfl, rfl, rfl, rfl, (by rintro ⟨⟩)⟩, fun _ => rfl, fun _ => .inr ⟨hn, hid, .inr ?_⟩⟩
        unfold recoversInterrupted at hrecovers
        split at hrecovers
        · exact .inr (runsTarget_of_any hrecovers fun node hnode => of_decide_eq_true hnode)
        · exact .inl (of_decide_eq_true hrecovers)
      · refine .inr ⟨task, hmem, _, _, hnewest, hn, ?_, (pure_eq_ok.mp h).symm⟩
        exact ⟨⟨rfl, rfl, rfl, rfl, (by rintro ⟨⟩)⟩, fun hsucceeded => absurd hsucceeded hopen, (by rintro ⟨⟩)⟩
  · cases h

theorem recordNodeUpgradeReport_earns {report : NodeUpgradeReport}
    (h : db.recordNodeUpgradeReport nodeID report now = .ok db') :
    Earns (db.reportCompletes nodeID report) D db db' := by
  rcases recordNodeUpgradeReport_update h with rfl | ⟨task, htask, f, hf, -, -, hearns, rfl⟩
  · exact .refl db'
  · refine .of_update hf rfl (nodes_kept D rfl) rfl fun row hrow hid => ?_
    obtain rfl := Table.eq_of_key_eq hrow htask (of_decide_eq_true hid)
    exact hearns

/-- A report leaves every task but the newest of the node as it is. -/
theorem recordNodeUpgradeReport_newest {report : NodeUpgradeReport}
    (h : db.recordNodeUpgradeReport nodeID report now = .ok db') {task task' : NodeUpgradeTask}
    (htask : task ∈ db.nodeUpgradeTasks) (htask' : task' ∈ db'.nodeUpgradeTasks)
    (hid : task'.id = task.id) (hchanged : task'.status ≠ task.status) :
    ∀ other ∈ db.nodeUpgradeTasks, other.nodeID = task.nodeID →
      other.createdAt ≤ task.createdAt := by
  intro other hother hn
  rcases recordNodeUpgradeReport_update h with rfl | ⟨newest, hnewest, f, hf, hlatest, hnode, -, rfl⟩
  · exact absurd (congrArg NodeUpgradeTask.status (Table.eq_of_key_eq htask' htask hid)) hchanged
  · obtain ⟨row, hrow, rfl⟩ := List.mem_map.mp htask'
    split at hid
    · next hselected =>
      -- the row is the newest one
      have hrowID : row.id = newest.id := of_decide_eq_true hselected
      have hfrow : (f row).id = row.id := hf row
      obtain rfl := Table.eq_of_key_eq hnewest htask (hrowID.symm.trans (hfrow.symm.trans hid))
      refine List.le_of_mem_argmax (List.mem_filter.mpr ⟨hother, ?_⟩) hlatest
      exact decide_eq_true (hn.trans hnode)
    · next hselected =>
      rw [if_neg hselected] at hchanged
      exact absurd (congrArg NodeUpgradeTask.status (Table.eq_of_key_eq hrow htask hid)) hchanged

end

end Store

end SimpleCdn
