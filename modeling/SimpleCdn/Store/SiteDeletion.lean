import SimpleCdn.Store.Publication

/-!
# Deleting a site

A deletion is a task with a job row that walks through three phases: withdraw the managed DNS
records, wait until the edges confirm a desired state without the site, remove the row.
`BeginSiteDeletion` marks the row as deleting; a failed deletion is retried by beginning again,
which gives the job a new task and the first phase.
-/

namespace SimpleCdn.Store

/-- `BeginSiteDeletion`: the task, and whether this call created it. -/
def beginSiteDeletion (db : Store) (siteID taskID actor remoteAddr : String)
    (deadline now : Time) : Except StoreError (DeploymentTask × Bool × Store) := do
  let _ ← db.getSite siteID
  match db.activeDeletionTask siteID with
  | some task => return (task, false, db)
  | none =>
    require ((db.deploymentTasks.any fun task =>
      task.siteID = siteID && task.kind ≠ .deleteSite && task.status.active) = false)
      .siteTaskActive
    let task : DeploymentTask :=
      ⟨taskID, .deleteSite, siteID, .queued, "queued for safe site deletion", some deadline, now,
        now⟩
    let db ← db.insertTask task
    let db := { db with
      sites := db.sites.update (fun row => row.id = siteID)
        (fun row => { row with enabled := false, deleting := true, updatedAt := now })
      siteDeletionJobs := db.siteDeletionJobs.upsert
        ⟨siteID, taskID, .withdrawingDNS, actor, remoteAddr, now, now⟩ }
    return (task, true, db)

/-- `SiteDeletionJobForTask`; `task_id` is unique. -/
def siteDeletionJobForTask (db : Store) (taskID : String) : Option SiteDeletionJob :=
  db.siteDeletionJobs.rows.find? fun job => job.taskID = taskID

def setSiteDeletionPhase (db : Store) (taskID : String) (phase : SiteDeletionPhase)
    (status : TaskStatus) (detail : String) (now : Time) : Except StoreError Store := do
  let _ ← orError (db.siteDeletionJobForTask taskID) .notFound
  return ({ db with
    siteDeletionJobs := db.siteDeletionJobs.update (fun job => job.taskID = taskID)
      (fun job => { job with phase := phase, updatedAt := now }) }).setTask taskID status detail now

/-- `StageSiteDeletion`: the targets, the node states and the next phase in one transaction. -/
def stageSiteDeletion (db : Store) (taskID : String) (updates : List NodeStateUpdate)
    (targets : List PublishTaskNode) (now : Time) : Except StoreError Store := do
  db.ensureNodesNotUpgrading (upgradedNodeIDs updates targets)
  let db ← createPublishTaskNodes taskID targets db
  let db ← saveNodeStates now updates db
  db.setSiteDeletionPhase taskID .waitingForEdges .applying
    "waiting for active edge nodes to remove the site" now

/-- The status a delete task takes when a target did not confirm. -/
def deletionOutcome (counts : TaskNodeCounts) : TaskStatus × String :=
  if 0 < counts.succeeded then
    (.partialSuccess,
      s!"site removed by {counts.succeeded} of {counts.total} active edge node(s)")
  else (.failed, s!"{counts.failed} active edge node(s) did not remove the site")

/-- `SiteDeletionReady`: whether every target confirmed, and the phase or status that follows. -/
def siteDeletionReady (db : Store) (taskID : String) (now : Time) :
    Except StoreError (Bool × Store) := do
  let task ← db.getTask taskID
  if task.status.active = false then return (false, db)
  let db := db.confirmApplied taskID now
  let counts := db.deploymentTaskNodeCounts taskID
  let late := expired task.deadlineAt now
  if 0 < counts.pending ∧ late = false then return (false, db)
  let db :=
    if 0 < counts.pending then
      db.timeOutPending taskID
        "edge did not confirm site removal before the deletion deadline"
    else db
  let failed := counts.failed + counts.pending
  if 0 < failed then
    let (status, detail) := deletionOutcome { counts with failed := failed }
    let db ← db.updateTask taskID status detail now
    return (false, db)
  else if counts.total = 0 ∨ counts.succeeded = counts.total then
    let db ← db.setSiteDeletionPhase taskID .finalizing .applying
      "edge removal confirmed; cleaning certificate material" now
    return (true, db)
  else return (false, db)

/-- `FailSiteDeletion`. -/
def failSiteDeletion (db : Store) (taskID detail : String) (now : Time) : Store :=
  db.setTask taskID .failed detail now

/-- `DELETE FROM sites`, with the rows that reference the site by a cascading foreign key. -/
def deleteSite (db : Store) (siteID : String) : Store :=
  { db with
    sites := db.sites.delete fun site => site.id = siteID
    siteDomains := db.siteDomains.delete fun claim => claim.siteID = siteID
    certificates := db.certificates.delete fun row => row.siteID = siteID
    sitePublications := db.sitePublications.delete fun publication =>
      publication.site.id = siteID
    siteDeletionJobs := db.siteDeletionJobs.delete fun job => job.siteID = siteID }

def completeSiteDeletion (db : Store) (taskID : String) (now : Time) :
    Except StoreError Store := do
  let job ← orError (db.siteDeletionJobForTask taskID) .notFound
  let _ ← orError (db.sites.find? job.siteID) .notFound
  let confirmed := (db.deploymentTaskNodeCounts taskID).succeeded
  return (db.deleteSite job.siteID).setTask taskID .succeeded
    s!"site removed after confirmation from {confirmed} active edge node(s)" now

def activeSiteDeletionJobs (db : Store) : List SiteDeletionJob :=
  db.siteDeletionJobs.rows.filter fun job =>
    match db.deploymentTasks.find? job.taskID with
    | some task => task.status.active
    | none => false

/-! ### What each operation writes -/

section Written

variable {db db' : Store} {siteID taskID actor remoteAddr : String} {deadline now : Time}

/-- A deletion that is already under way is returned; otherwise the row is marked, unless another
task of the site is active. -/
theorem beginSiteDeletion_eq_ok {task : DeploymentTask} {created : Bool}
    (h : db.beginSiteDeletion siteID taskID actor remoteAddr deadline now =
      .ok (task, created, db')) :
    (∃ site, db.sites.find? siteID = some site) ∧
    ((created = false ∧ db.activeDeletionTask siteID = some task ∧ db' = db) ∨
    (created = true ∧ db.activeDeletionTask siteID = none ∧
      (∀ other ∈ db.deploymentTasks, other.siteID = siteID → other.status.active = true →
        other.kind = .deleteSite) ∧
      task = ⟨taskID, .deleteSite, siteID, .queued, "queued for safe site deletion",
        some deadline, now, now⟩ ∧
      ∃ tasks, db.deploymentTasks.insert? task = some tasks ∧ taskID ∉ db.issuedIDs ∧
        db' = { db with
          issuedIDs := taskID :: db.issuedIDs
          deploymentTasks := tasks
          sites := db.sites.update (fun row => row.id = siteID)
            (fun row => { row with enabled := false, deleting := true, updatedAt := now })
          siteDeletionJobs := db.siteDeletionJobs.upsert
            ⟨siteID, taskID, .withdrawingDNS, actor, remoteAddr, now, now⟩ })) := by
  simp only [beginSiteDeletion, bind_eq_ok, getSite_eq_ok] at h
  obtain ⟨site, hfind, h⟩ := h
  refine ⟨⟨site, hfind⟩, ?_⟩
  cases hactive : db.activeDeletionTask siteID with
  | some active =>
    simp only [hactive, pure_eq_ok, Prod.mk.injEq] at h
    obtain ⟨rfl, rfl, rfl⟩ := h
    exact .inl ⟨rfl, rfl, rfl⟩
  | none =>
    simp only [hactive, bind_eq_ok, require_eq_ok, pure_eq_ok, exists_const, Prod.mk.injEq] at h
    obtain ⟨hconflict, db₁, hinsert, rfl, rfl, rfl⟩ := h
    obtain ⟨hfresh, tasks, htasks, rfl⟩ := insertTask_eq_ok hinsert
    refine .inr ⟨rfl, rfl, ?_, rfl, tasks, htasks, hfresh, rfl⟩
    intro other hother hsite hstatus
    have hnot := Table.any_eq_false.mp hconflict other hother
    simpa [hsite, hstatus] using hnot

theorem completeSiteDeletion_eq_ok (h : db.completeSiteDeletion taskID now = .ok db') :
    ∃ job site detail, db.siteDeletionJobForTask taskID = some job ∧
      db.sites.find? job.siteID = some site ∧
      db' = (db.deleteSite job.siteID).setTask taskID .succeeded detail now := by
  simp only [completeSiteDeletion, bind_eq_ok, orError_eq_ok, pure_eq_ok] at h
  obtain ⟨job, hjob, site, hsite, rfl⟩ := h
  exact ⟨job, site, _, hjob, hsite, rfl⟩

theorem setSiteDeletionPhase_eq_ok {phase : SiteDeletionPhase} {status : TaskStatus}
    {detail : String} (h : db.setSiteDeletionPhase taskID phase status detail now = .ok db') :
    (∃ job, db.siteDeletionJobForTask taskID = some job) ∧
    db' = ({ db with
      siteDeletionJobs := db.siteDeletionJobs.update (fun job => job.taskID = taskID)
        (fun job => { job with phase := phase, updatedAt := now }) }).setTask taskID status detail
          now := by
  simp only [setSiteDeletionPhase, bind_eq_ok, orError_eq_ok, pure_eq_ok] at h
  obtain ⟨job, hjob, rfl⟩ := h
  exact ⟨⟨job, hjob⟩, rfl⟩

end Written

end SimpleCdn.Store
