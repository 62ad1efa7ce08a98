import SimpleCdn.Store.Sites

/-!
# Deployment tasks

The `deployment_tasks` rows and the per-node targets of a publish or delete task.  A publish
task waits for its targets: `recordPublishApply` settles them from an edge's apply report,
`reconcilePublishTask` from the applied version of the node or from the deadline, and the task
takes its final status from the counts.
-/

namespace SimpleCdn

structure PublishTaskNode where
  nodeID : String
  targetVersion : Nat
  deriving DecidableEq, Repr

/-- `deploymentTaskNodeCounts`. -/
structure TaskNodeCounts where
  total : Nat
  pending : Nat
  succeeded : Nat
  failed : Nat
  deriving DecidableEq, Repr

namespace Store

def getTask (db : Store) (id : String) : Except StoreError DeploymentTask :=
  orError (db.deploymentTasks.find? id) .notFound

def updateTask (db : Store) (id : String) (status : TaskStatus) (detail : String) (now : Time) :
    Except StoreError Store := do
  let _ ← orError (db.deploymentTasks.find? id) .notFound
  return { db with
    deploymentTasks := db.deploymentTasks.update (fun task => task.id = id) (fun task =>
      { task with status := status, detail := detail, updatedAt := now }) }

/-- The statement of `UpdateTask` when its result is ignored: no row, no change. -/
def setTask (db : Store) (id : String) (status : TaskStatus) (detail : String) (now : Time) :
    Store :=
  { db with
    deploymentTasks := db.deploymentTasks.update (fun task => task.id = id) (fun task =>
      { task with status := status, detail := detail, updatedAt := now }) }

/-! ### Targets -/

def createPublishTaskNodes (taskID : String) :
    List PublishTaskNode → Store → Except StoreError Store
  | [], db => .ok db
  | target :: targets, db => do
    require (taskID ≠ "") (.message "publish task node targets are missing a task ID")
    require (target.nodeID ≠ "" ∧ 1 ≤ target.targetVersion)
      (.message "invalid publish task node target")
    let _ ← orError (db.deploymentTasks.find? taskID) .constraint
    let _ ← orError (db.nodes.find? target.nodeID) .constraint
    let rows ← orError
      (db.publishTaskNodes.insert?
        ⟨taskID, target.nodeID, target.targetVersion, .pending, "", "", none⟩) .constraint
    createPublishTaskNodes taskID targets { db with publishTaskNodes := rows }

def taskNodes (db : Store) (taskID : String) : List PublishTaskNodeRow :=
  db.publishTaskNodes.rows.filter fun row => row.taskID = taskID

def deploymentTaskNodeCounts (db : Store) (taskID : String) : TaskNodeCounts where
  total := (db.taskNodes taskID).length
  pending := ((db.taskNodes taskID).filter fun row => row.status = .pending).length
  succeeded := ((db.taskNodes taskID).filter fun row => row.status = .succeeded).length
  failed :=
    ((db.taskNodes taskID).filter fun row => row.status = .failed || row.status = .timedOut).length

/-- `status IN ('queued', 'dispatching', 'applying')` of the task `taskID`, of one of `kinds`. -/
def taskActive (db : Store) (taskID : String) (kinds : List TaskKind) : Bool :=
  match db.deploymentTasks.find? taskID with
  | some task => kinds.contains task.kind && task.status.active
  | none => false

/-- The pending targets that a report settles. -/
def reportSettles (db : Store) (nodeID : String) (report : ApplyReport)
    (row : PublishTaskNodeRow) : Bool :=
  row.nodeID = nodeID && row.targetVersion ≤ report.version && row.status = .pending &&
    db.taskActive row.taskID [.publishSite, .deleteSite]

def reportedStatus : ApplyStatus → PublishNodeStatus
  | .succeeded => .succeeded
  | .failed => .failed

def recordPublishApply (db : Store) (nodeID : String) (report : ApplyReport) (now : Time) :
    Except StoreError Store := do
  require (1 ≤ report.version) (.message "invalid edge apply report")
  return { db with
    publishTaskNodes := db.publishTaskNodes.update (db.reportSettles nodeID report) (fun row =>
      { row with
        status := reportedStatus report.status, errorCode := report.code,
        detail := report.detail, reportedAt := some now }) }

/-- The node of a pending target has reported an applied version that covers it. -/
def appliedCovers (db : Store) (row : PublishTaskNodeRow) : Bool :=
  match db.nodes.find? row.nodeID with
  | some node => row.targetVersion ≤ node.appliedVersion
  | none => false

/-- The statement both reconcile operations begin with: pending targets of the task whose node
has applied their version have succeeded. -/
def confirmApplied (db : Store) (taskID : String) (now : Time) : Store :=
  { db with
    publishTaskNodes := db.publishTaskNodes.update
      (fun row => row.taskID = taskID && row.status = .pending && db.appliedCovers row)
      (fun row =>
        { row with
          status := .succeeded, errorCode := "", detail := "edge confirmed applied version",
          reportedAt := some now }) }

/-- Pending targets of the task have timed out. -/
def timeOutPending (db : Store) (taskID detail : String) : Store :=
  { db with
    publishTaskNodes := db.publishTaskNodes.update
      (fun row => row.taskID = taskID && row.status = .pending)
      (fun row =>
        { row with status := .timedOut, errorCode := "confirmation_timeout", detail := detail }) }

/-- `deadline != nil && !deadline.After(now)`. -/
def expired (deadline : Option Time) (now : Time) : Bool :=
  match deadline with
  | some time => time ≤ now
  | none => false

/-! ### Reconciling publish tasks -/

/-- The final status of a publish task from the counts of its targets. -/
def publishOutcome (counts : TaskNodeCounts) : TaskStatus × String :=
  if counts.succeeded = counts.total then
    (.succeeded, s!"configuration applied by {counts.succeeded} active edge node(s)")
  else if 0 < counts.succeeded then
    (.partialSuccess,
      s!"configuration applied by {counts.succeeded} of {counts.total} active edge node(s)")
  else (.failed, s!"{counts.failed} edge node(s) did not apply the configuration")

def reconcilePublishTask (db : Store) (taskID : String) (deadline : Option Time) (now : Time) :
    Store :=
  let db := db.confirmApplied taskID now
  let counts := db.deploymentTaskNodeCounts taskID
  if counts.total = 0 then
    if expired deadline now then
      db.setTask taskID .failed
        "publish task did not create edge confirmation targets; retry Publish" now
    else db
  else if 0 < counts.pending && !(deadline.isNone || expired deadline now) then db
  else
    let (status, detail) :=
      publishOutcome { counts with failed := counts.failed + counts.pending }
    (db.timeOutPending taskID
      "edge did not confirm the target configuration before the publish deadline").setTask
        taskID status detail now

/-- The publish tasks a reconcile round looks at. -/
def activePublishTasks (db : Store) : List DeploymentTask :=
  db.deploymentTasks.rows.filter fun task => task.kind = .publishSite && task.status.active

def reconcilePublishTasks (db : Store) (now : Time) : Store :=
  db.activePublishTasks.foldl (fun db task => db.reconcilePublishTask task.id task.deadlineAt now)
    db

/-! ### Creating tasks

Partial unique indexes allow one active publish task, one active certificate task and one active
delete task for each site; `INSERT OR IGNORE` leaves the table alone when one exists. -/

def activeTask (db : Store) (siteID : String) (kind : TaskKind → Bool) : Option DeploymentTask :=
  db.deploymentTasks.rows.find? fun task =>
    task.siteID = siteID && kind task.kind && task.status.active

def activePublishTask (db : Store) (siteID : String) : Option DeploymentTask :=
  db.activeTask siteID fun kind => kind = .publishSite

def activeCertificateTask (db : Store) (siteID : String) : Option DeploymentTask :=
  db.activeTask siteID TaskKind.certificate

def activeDeletionTask (db : Store) (siteID : String) : Option DeploymentTask :=
  db.activeTask siteID fun kind => kind = .deleteSite

def insertTask (db : Store) (task : DeploymentTask) : Except StoreError Store := do
  let db ← db.newID task.id
  let tasks ← orError (db.deploymentTasks.insert? task) .constraint
  return { db with deploymentTasks := tasks }

/-- `CreateOrGetActivePublishTask`: the task, and whether this call created it. -/
def createOrGetActivePublishTask (db : Store) (siteID taskID : String) (deadline now : Time) :
    Except StoreError (DeploymentTask × Bool × Store) := do
  require (siteID ≠ "") (.message "site ID is required")
  require ((db.sites.any fun site => site.id = siteID && site.deleting) = false) .siteDeleting
  let db := db.reconcilePublishTasks now
  match db.activePublishTask siteID with
  | some task => return (task, false, db)
  | none =>
    let task : DeploymentTask :=
      ⟨taskID, .publishSite, siteID, .queued, "building node configurations", some deadline, now,
        now⟩
    let db ← db.insertTask task
    return (task, true, db)

/-- `CreateOrGetActiveCertificateTask`. -/
def createOrGetActiveCertificateTask (db : Store) (kind : TaskKind) (siteID taskID detail : String)
    (now : Time) : Except StoreError (DeploymentTask × Bool × Store) := do
  require (siteID ≠ "") (.message "site ID is required")
  require (kind.certificate = true) (.message "invalid certificate task kind")
  let site ← db.getSite siteID
  require (site.deleting = false) .siteDeleting
  match db.activeCertificateTask siteID with
  | some task => return (task, false, db)
  | none =>
    let task : DeploymentTask := ⟨taskID, kind, siteID, .queued, detail, none, now, now⟩
    let db ← db.insertTask task
    return (task, true, db)

/-- `FailActiveCertificateTasks`, at shutdown and at startup. -/
def failActiveCertificateTasks (db : Store) (detail : String) (now : Time) : Store :=
  { db with
    deploymentTasks := db.deploymentTasks.update
      (fun task => task.kind.certificate && task.status.active)
      (fun task => { task with status := .failed, detail := detail, updatedAt := now }) }

/-! ### What each operation writes -/

section Written

variable {db db' : Store} {siteID taskID detail : String} {deadline now : Time}

/-- Creating targets changes the table of targets only, and adds exactly the listed ones. -/
theorem createPublishTaskNodes_eq_ok {targets : List PublishTaskNode}
    (h : createPublishTaskNodes taskID targets db = .ok db') :
    ∃ rows : Table PublishTaskNodeRow, db' = { db with publishTaskNodes := rows } ∧
      ∀ row, row ∈ rows ↔ row ∈ db.publishTaskNodes ∨
        ∃ target ∈ targets,
          row = ⟨taskID, target.nodeID, target.targetVersion, .pending, "", "", none⟩ := by
  induction targets generalizing db with
  | nil =>
    obtain rfl : db = db' := by simpa [createPublishTaskNodes] using h
    exact ⟨db.publishTaskNodes, rfl, by simp⟩
  | cons target targets ih =>
    simp only [createPublishTaskNodes, bind_eq_ok, require_eq_ok, orError_eq_ok,
      exists_const] at h
    obtain ⟨-, -, _, -, _, -, rows₁, hinsert, hrest⟩ := h
    obtain ⟨rows, rfl, hrows⟩ := ih hrest
    refine ⟨rows, rfl, fun row => ?_⟩
    rw [hrows, Table.mem_of_insert? hinsert]
    simp only [List.mem_cons, exists_eq_or_imp, or_assoc]

/-- A target is created for a node that exists. -/
theorem createPublishTaskNodes_nodes {targets : List PublishTaskNode}
    (h : createPublishTaskNodes taskID targets db = .ok db') :
    ∀ target ∈ targets, ∃ node, db.nodes.find? target.nodeID = some node := by
  induction targets generalizing db with
  | nil => simp
  | cons target targets ih =>
    simp only [createPublishTaskNodes, bind_eq_ok, require_eq_ok, orError_eq_ok,
      exists_const] at h
    obtain ⟨-, -, _, -, node, hnode, rows, -, hrest⟩ := h
    intro target' hmem
    rcases List.mem_cons.mp hmem with rfl | hmem
    · exact ⟨node, hnode⟩
    · exact ih hrest target' hmem

theorem insertTask_eq_ok {task : DeploymentTask} (h : db.insertTask task = .ok db') :
    task.id ∉ db.issuedIDs ∧
    ∃ tasks, db.deploymentTasks.insert? task = some tasks ∧
      db' = { db with issuedIDs := task.id :: db.issuedIDs, deploymentTasks := tasks } := by
  simp only [insertTask, bind_eq_ok, orError_eq_ok, pure_eq_ok] at h
  obtain ⟨db₁, hnew, tasks, hinsert, rfl⟩ := h
  obtain ⟨hfresh, rfl⟩ := newID_eq_ok.mp hnew
  exact ⟨hfresh, tasks, hinsert, rfl⟩

theorem updateTask_eq_ok {id : String} {status : TaskStatus}
    (h : db.updateTask id status detail now = .ok db') :
    db' = db.setTask id status detail now := by
  simp only [updateTask, bind_eq_ok, orError_eq_ok, pure_eq_ok] at h
  obtain ⟨_, -, rfl⟩ := h
  rfl

/-- Reconciling changes tasks and their targets only. -/
theorem reconcilePublishTask_frame (db : Store) (taskID : String) (deadline : Option Time)
    (now : Time) :
    ∃ tasks rows, db.reconcilePublishTask taskID deadline now =
      { db with deploymentTasks := tasks, publishTaskNodes := rows } := by
  unfold reconcilePublishTask
  simp only
  split
  · split
    · exact ⟨_, _, rfl⟩
    · exact ⟨_, _, rfl⟩
  · split
    · exact ⟨_, _, rfl⟩
    · exact ⟨_, _, rfl⟩

theorem foldl_reconcilePublishTask_frame (tasks : List DeploymentTask) (db : Store) (now : Time) :
    ∃ deploymentTasks rows,
      tasks.foldl (fun db task => db.reconcilePublishTask task.id task.deadlineAt now) db =
        { db with deploymentTasks := deploymentTasks, publishTaskNodes := rows } := by
  induction tasks generalizing db with
  | nil => exact ⟨_, _, rfl⟩
  | cons task tasks ih =>
    obtain ⟨tasks₁, rows₁, h₁⟩ := db.reconcilePublishTask_frame task.id task.deadlineAt now
    obtain ⟨tasks₂, rows₂, h₂⟩ := ih { db with deploymentTasks := tasks₁, publishTaskNodes := rows₁ }
    refine ⟨tasks₂, rows₂, ?_⟩
    rw [List.foldl_cons, h₁, h₂]

theorem reconcilePublishTasks_frame (db : Store) (now : Time) :
    ∃ tasks rows, db.reconcilePublishTasks now =
      { db with deploymentTasks := tasks, publishTaskNodes := rows } :=
  foldl_reconcilePublishTask_frame _ db now

/-- The call returns the active task of the site, or has inserted a new one. -/
theorem createOrGetActivePublishTask_eq_ok {task : DeploymentTask} {created : Bool}
    (h : db.createOrGetActivePublishTask siteID taskID deadline now = .ok (task, created, db')) :
    (created = false ∧ (db.reconcilePublishTasks now).activePublishTask siteID = some task ∧
      db' = db.reconcilePublishTasks now) ∨
    (created = true ∧ (db.reconcilePublishTasks now).activePublishTask siteID = none ∧
      task = ⟨taskID, .publishSite, siteID, .queued, "building node configurations", some deadline,
        now, now⟩ ∧
      (db.reconcilePublishTasks now).insertTask task = .ok db') := by
  simp only [createOrGetActivePublishTask, bind_eq_ok, require_eq_ok, exists_const] at h
  obtain ⟨-, -, h⟩ := h
  cases hactive : (db.reconcilePublishTasks now).activePublishTask siteID with
  | some active =>
    simp only [hactive, pure_eq_ok, Prod.mk.injEq] at h
    obtain ⟨rfl, rfl, rfl⟩ := h
    exact .inl ⟨rfl, rfl, rfl⟩
  | none =>
    simp only [hactive, bind_eq_ok, pure_eq_ok, Prod.mk.injEq] at h
    obtain ⟨db₁, hinsert, rfl, rfl, rfl⟩ := h
    exact .inr ⟨rfl, rfl, rfl, hinsert⟩

/-- Either way, only tasks, targets and issued identifiers have changed. -/
theorem createOrGetActivePublishTask_frame {task : DeploymentTask} {created : Bool}
    (h : db.createOrGetActivePublishTask siteID taskID deadline now = .ok (task, created, db')) :
    ∃ tasks rows ids, db' =
      { db with deploymentTasks := tasks, publishTaskNodes := rows, issuedIDs := ids } ∧
        db.issuedIDs ⊆ ids := by
  obtain ⟨tasks, rows, hreconcile⟩ := db.reconcilePublishTasks_frame now
  rcases createOrGetActivePublishTask_eq_ok h with ⟨-, -, rfl⟩ | ⟨-, -, -, hinsert⟩
  · exact ⟨tasks, rows, db.issuedIDs, hreconcile, List.Subset.refl _⟩
  · obtain ⟨-, tasks', -, rfl⟩ := insertTask_eq_ok hinsert
    refine ⟨tasks', rows, task.id :: db.issuedIDs, ?_, List.subset_cons_self _ _⟩
    rw [hreconcile]

/-- The call returns the active certificate task of the site, or has inserted a new one. -/
theorem createOrGetActiveCertificateTask_eq_ok {kind : TaskKind} {task : DeploymentTask}
    {created : Bool}
    (h : db.createOrGetActiveCertificateTask kind siteID taskID detail now =
      .ok (task, created, db')) :
    (created = false ∧ db' = db) ∨
      (created = true ∧ task = ⟨taskID, kind, siteID, .queued, detail, none, now, now⟩ ∧
        db.insertTask task = .ok db') := by
  simp only [createOrGetActiveCertificateTask, bind_eq_ok, require_eq_ok, exists_const] at h
  obtain ⟨-, -, site, -, -, h⟩ := h
  cases hactive : db.activeCertificateTask siteID with
  | some active =>
    simp only [hactive, pure_eq_ok, Prod.mk.injEq] at h
    obtain ⟨-, rfl, rfl⟩ := h
    exact .inl ⟨rfl, rfl⟩
  | none =>
    simp only [hactive, bind_eq_ok, pure_eq_ok, Prod.mk.injEq] at h
    obtain ⟨db₁, hinsert, rfl, rfl, rfl⟩ := h
    exact .inr ⟨rfl, rfl, hinsert⟩

end Written

end Store

end SimpleCdn
