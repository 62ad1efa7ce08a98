import Mathlib.Data.List.MinMax
import SimpleCdn.Store.NodeUninstall

/-!
# Online upgrades

A node has at most one upgrade task that is queued or applying.  The edge reports on its task;
the control plane accepts reports on the newest task of the node only, fails a task that passes
its deadline, and completes one whose interrupted updater turns out to have installed the target.

Digests are lower-case hexadecimal throughout, so comparing them without regard to case is
comparing them.  The locations of the artifacts are left out: no operation here reads them.
-/

namespace SimpleCdn

structure NodeUpgradeReport where
  taskID : String
  status : NodeUpgradeStatus
  errorCode : String
  detail : String
  installedSHA256 : String
  deriving DecidableEq, Repr

namespace Store

def recoveredUpgradeDetail : String :=
  "edge heartbeat confirmed the target artifact after the updater result was missed"

/-- `ORDER BY created_at DESC LIMIT 1`. -/
def newestUpgrade (db : Store) (p : NodeUpgradeTask → Bool) : Option NodeUpgradeTask :=
  (db.nodeUpgradeTasks.rows.filter p).argmax NodeUpgradeTask.createdAt

def latestNodeUpgrade (db : Store) (nodeID : String) : Option NodeUpgradeTask :=
  db.newestUpgrade fun task => task.nodeID = nodeID

def activeNodeUpgrade (db : Store) (nodeID : String) : Option NodeUpgradeTask :=
  db.newestUpgrade fun task => task.nodeID = nodeID && task.status.active

/-- The node is a pending target of an active task. -/
def hasActiveNodePublication (db : Store) (nodeID : String) : Bool :=
  db.publishTaskNodes.any fun row =>
    row.nodeID = nodeID && row.status = .pending &&
      db.deploymentTasks.any fun task => task.id = row.taskID && task.status.active

/-- The part of `CreateOrGetNodeUpgrade` for a node without an active task. -/
def createNodeUpgrade (db : Store) (nodeID id targetSHA256 : String) (deadline now : Time) :
    Except StoreError Store := do
  let node ← db.getNode nodeID
  require (node.activeUpgradeID = "") .upgradeRetryNotReady
  require (node.status = .active ∨ node.status = .draining)
    (.message "only active or paused nodes can be upgraded online")
  require (db.hasActiveNodeUninstall nodeID = false ∧ db.hasActiveNodePublication nodeID = false)
    .nodeOperationActive
  let db ← db.newID id
  let tasks ← orError (db.nodeUpgradeTasks.insert?
    { id := id
      nodeID := nodeID
      status := .queued
      sourceSHA256 := node.agentSHA256
      targetSHA256 := targetSHA256
      errorCode := ""
      detail := "waiting for edge to download upgrade artifacts"
      deadlineAt := deadline
      startedAt := none
      completedAt := none
      createdAt := now
      updatedAt := now }) .constraint
  return { db with nodeUpgradeTasks := tasks }

def createOrGetNodeUpgrade (db : Store) (nodeID id targetSHA256 : String) (deadline now : Time) :
    Except StoreError Store := do
  require (Text.trimSpace nodeID ≠ "" ∧ Text.trimSpace targetSHA256 ≠ "" ∧ now < deadline)
    (.message "invalid node upgrade request")
  match db.activeNodeUpgrade nodeID with
  | some _ => return db
  | none => db.createNodeUpgrade nodeID id targetSHA256 deadline now

/-- `UPDATE node_upgrade_tasks SET … WHERE id = ?`. -/
def updateUpgrade (db : Store) (taskID : String) (f : NodeUpgradeTask → NodeUpgradeTask)
    (hf : ∀ task, key (f task) = key task := by intro _; rfl) : Store :=
  { db with nodeUpgradeTasks := db.nodeUpgradeTasks.update (fun task => task.id = taskID) f hf }

/-- The assignments of a report that ends the task. -/
def finishUpgrade (status : NodeUpgradeStatus) (errorCode detail : String) (now : Time)
    (task : NodeUpgradeTask) : NodeUpgradeTask :=
  { task with
    status := status, errorCode := errorCode, detail := detail,
    startedAt := some (task.startedAt.getD now), completedAt := some now, updatedAt := now }

/-- An interrupted updater has installed the target all the same. -/
def recoversInterrupted (db : Store) (task : NodeUpgradeTask) (report : NodeUpgradeReport) : Bool :=
  if report.errorCode = "updater_interrupted" then
    (db.nodes.find? task.nodeID).any fun node => node.agentSHA256 = task.targetSHA256
  else task.targetSHA256 = ""

/-- What a report makes of the newest task of its node. -/
def reportUpgrade (db : Store) (task : NodeUpgradeTask) (report : NodeUpgradeReport)
    (now : Time) : Except StoreError Store :=
  match report.status with
  | .applying =>
    if task.status.active then
      return db.updateUpgrade task.id fun task =>
        { task with
          status := .applying, errorCode := "", detail := report.detail,
          startedAt := some (task.startedAt.getD now), updatedAt := now }
    else return db
  | .succeeded => do
    require (report.installedSHA256 = task.targetSHA256)
      (.message "installed edge digest does not match upgrade target")
    return db.updateUpgrade task.id (finishUpgrade .succeeded "" report.detail now)
  | .failed =>
    if task.status = .succeeded then return db
    else if db.recoversInterrupted task report then
      return db.updateUpgrade task.id (finishUpgrade .succeeded "" recoveredUpgradeDetail now)
    else
      return db.updateUpgrade task.id (finishUpgrade .failed report.errorCode report.detail now)
  | .queued => throw (.message "invalid node upgrade report status")

def recordNodeUpgradeReport (db : Store) (nodeID : String) (report : NodeUpgradeReport)
    (now : Time) : Except StoreError Store := do
  let task ← orError (db.nodeUpgradeTasks.find? report.taskID) .notFound
  require (task.nodeID = nodeID) .notFound
  require ((db.latestNodeUpgrade nodeID).any (fun latest => latest.id = task.id) = true)
    (.message "upgrade report does not belong to the latest node task")
  db.reportUpgrade task report now

/-- The condition of the statement that completes interrupted upgrades. -/
def recoverable (db : Store) (task : NodeUpgradeTask) : Bool :=
  task.status = .failed && task.errorCode = "updater_interrupted" &&
    !db.nodeUpgradeTasks.any (fun newer =>
      newer.nodeID = task.nodeID && decide (task.createdAt < newer.createdAt)) &&
    (db.nodes.find? task.nodeID).any fun node =>
      node.agentSHA256 = task.targetSHA256 && node.activeUpgradeID = ""

/-- `ReconcileNodeUpgrades`, its first statement. -/
def timeOutUpgrades (db : Store) (now : Time) : Store :=
  { db with
    nodeUpgradeTasks := db.nodeUpgradeTasks.update
      (fun task => task.status.active && task.deadlineAt ≤ now)
      (fun task =>
        { task with
          status := .failed, errorCode := "upgrade_timeout",
          detail := "edge did not complete the online upgrade before the deadline",
          completedAt := some now, updatedAt := now }) }

/-- `ReconcileNodeUpgrades`, its second statement. -/
def recoverUpgrades (db : Store) (now : Time) : Store :=
  { db with
    nodeUpgradeTasks := db.nodeUpgradeTasks.update db.recoverable
      (fun task =>
        { task with
          status := .succeeded, errorCode := "", detail := recoveredUpgradeDetail,
          completedAt := some now, updatedAt := now }) }

def reconcileNodeUpgrades (db : Store) (now : Time) : Store :=
  (db.timeOutUpgrades now).recoverUpgrades now

def failActiveNodeUpgrade (db : Store) (nodeID code detail : String) (now : Time) : Store :=
  { db with
    nodeUpgradeTasks := db.nodeUpgradeTasks.update
      (fun task => task.nodeID = nodeID && task.status.active)
      (fun task =>
        { task with
          status := .failed, errorCode := code, detail := detail, completedAt := some now,
          updatedAt := now }) }

/-! ### What an operation does to a task -/

/-- The task stays what it is, and is not taken up again. -/
structure UpgradeKept (task task' : NodeUpgradeTask) : Prop where
  id : task'.id = task.id
  nodeID : task'.nodeID = task.nodeID
  target : task'.targetSHA256 = task.targetSHA256
  created : task'.createdAt = task.createdAt
  active : task'.status.active = true → task.status.active = true

theorem UpgradeKept.refl (task : NodeUpgradeTask) : UpgradeKept task task :=
  ⟨rfl, rfl, rfl, rfl, fun hactive => hactive⟩

theorem UpgradeKept.trans {task task' task'' : NodeUpgradeTask} (h : UpgradeKept task task')
    (h' : UpgradeKept task' task'') : UpgradeKept task task'' :=
  ⟨h'.id.trans h.id, h'.nodeID.trans h.nodeID, h'.target.trans h.target,
    h'.created.trans h.created, fun hactive => h.active (h'.active hactive)⟩

/-- The rows of the tasks are set one by one. -/
def UpgradeRowsKept (tasks tasks' : Table NodeUpgradeTask) : Prop :=
  ∃ F, tasks'.rows = tasks.rows.map F ∧ ∀ task ∈ tasks, UpgradeKept task (F task)

/-- Fields are set in the tasks that a condition selects. -/
theorem UpgradeRowsKept.update {tasks : Table NodeUpgradeTask} {p : NodeUpgradeTask → Bool}
    {f : NodeUpgradeTask → NodeUpgradeTask} (hf : ∀ task, key (f task) = key task)
    (h : ∀ task ∈ tasks, p task = true → UpgradeKept task (f task)) :
    UpgradeRowsKept tasks (tasks.update p f hf) := by
  refine ⟨_, rfl, fun task htask => ?_⟩
  split
  · next hp => exact h task htask hp
  · exact .refl task

theorem UpgradeRowsKept.trans {tasks tasks' tasks'' : Table NodeUpgradeTask}
    (h : UpgradeRowsKept tasks tasks') (h' : UpgradeRowsKept tasks' tasks'') :
    UpgradeRowsKept tasks tasks'' := by
  obtain ⟨F, hrows, hkept⟩ := h
  obtain ⟨F', hrows', hkept'⟩ := h'
  refine ⟨F' ∘ F, by rw [hrows', hrows, List.map_map], fun task htask => ?_⟩
  have hfirst := hkept task htask
  have hmem : F task ∈ tasks' := by
    rw [Table.mem_iff, hrows]
    exact List.mem_map_of_mem htask
  exact hfirst.trans (hkept' (F task) hmem)

/-- A report sets the fields of one task, and makes it active only if it was. -/
theorem recordNodeUpgradeReport_cases {db db' : Store} {nodeID : String}
    {report : NodeUpgradeReport} {now : Time}
    (hrecord : db.recordNodeUpgradeReport nodeID report now = .ok db') :
    db' = db ∨ ∃ task ∈ db.nodeUpgradeTasks, ∃ f hf, UpgradeKept task (f task) ∧
      db' = db.updateUpgrade task.id f hf := by
  simp only [recordNodeUpgradeReport, bind_eq_ok, orError_eq_ok, require_eq_ok, exists_const]
    at hrecord
  obtain ⟨task, htask, -, -, hrecord⟩ := hrecord
  have hmem := Table.mem_of_find? htask
  unfold reportUpgrade at hrecord
  split at hrecord
  · split at hrecord
    · next hactive =>
      exact .inr ⟨task, hmem, _, _, ⟨rfl, rfl, rfl, rfl, fun _ => hactive⟩,
        (pure_eq_ok.mp hrecord).symm⟩
    · exact .inl (pure_eq_ok.mp hrecord).symm
  · simp only [bind_eq_ok, pure_eq_ok] at hrecord
    obtain ⟨-, -, hrecord⟩ := hrecord
    refine .inr ⟨task, hmem, _, _, ⟨rfl, rfl, rfl, rfl, ?_⟩, hrecord.symm⟩
    rintro ⟨⟩
  · split at hrecord
    · exact .inl (pure_eq_ok.mp hrecord).symm
    · split at hrecord
      · refine .inr ⟨task, hmem, _, _, ⟨rfl, rfl, rfl, rfl, ?_⟩, (pure_eq_ok.mp hrecord).symm⟩
        rintro ⟨⟩
      · refine .inr ⟨task, hmem, _, _, ⟨rfl, rfl, rfl, rfl, ?_⟩, (pure_eq_ok.mp hrecord).symm⟩
        rintro ⟨⟩
  · cases hrecord

theorem recordNodeUpgradeReport_rows {db db' : Store} {nodeID : String}
    {report : NodeUpgradeReport} {now : Time}
    (hrecord : db.recordNodeUpgradeReport nodeID report now = .ok db') :
    ∃ tasks, db' = { db with nodeUpgradeTasks := tasks } ∧
      UpgradeRowsKept db.nodeUpgradeTasks tasks := by
  rcases recordNodeUpgradeReport_cases hrecord with rfl | ⟨task, htask, f, hf, hkept, rfl⟩
  · exact ⟨_, rfl, id, (List.map_id _).symm, fun task _ => .refl task⟩
  · refine ⟨_, rfl, .update hf fun row hrow hid => ?_⟩
    obtain rfl := Table.eq_of_key_eq hrow htask (of_decide_eq_true hid)
    exact hkept

/-- Timeouts and recoveries end upgrades. -/
theorem reconcileNodeUpgrades_rows (db : Store) (now : Time) :
    UpgradeRowsKept db.nodeUpgradeTasks (db.reconcileNodeUpgrades now).nodeUpgradeTasks := by
  have htimeOut : UpgradeRowsKept db.nodeUpgradeTasks (db.timeOutUpgrades now).nodeUpgradeTasks :=
    .update (by intro _; rfl) fun task _ _ => ⟨rfl, rfl, rfl, rfl, nofun⟩
  have hrecover : UpgradeRowsKept (db.timeOutUpgrades now).nodeUpgradeTasks
      (db.reconcileNodeUpgrades now).nodeUpgradeTasks :=
    .update (by intro _; rfl) fun task _ _ => ⟨rfl, rfl, rfl, rfl, nofun⟩
  exact htimeOut.trans hrecover

end Store

end SimpleCdn
