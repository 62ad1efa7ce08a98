import SimpleCdn.Control.SiteDeletion
import SimpleCdn.Reconciling.System
import SimpleCdn.Store.NodeOps
import SimpleCdn.Store.Upgrades

/-!
# Operations that claim a node

Upgrades, publications, site deletions and uninstalls, one statement or transaction at a time.
The publisher's mutex admits one publish call and the deletion manager's one deletion call;
everything else runs in between: reconciliations of publish tasks, reports and heartbeats of
edges, administrators, certificate jobs.  What a call renders is given with the action, since its
reads spread over a while and nothing here depends on them.

A call that fails writes the failure to its task and is over; a restart forgets the calls.
-/

namespace SimpleCdn

/-- `CreateOrGetActivePublishTask` after its reconciliation. -/
def Store.createPublishTask (db : Store) (siteID taskID : String) (deadline now : Time) :
    Except StoreError (DeploymentTask × Bool × Store) :=
  match db.activePublishTask siteID with
  | some task => return (task, false, db)
  | none => do
    let task : DeploymentTask :=
      ⟨taskID, .publishSite, siteID, .queued, "building node configurations", some deadline, now,
        now⟩
    let db ← db.insertTask task
    return (task, true, db)

theorem Store.createOrGetActivePublishTask_eq (db : Store) (siteID taskID : String)
    (deadline now : Time) :
    db.createOrGetActivePublishTask siteID taskID deadline now = (do
      require (siteID ≠ "") (.message "site ID is required")
      require ((db.sites.any fun site => site.id = siteID && site.deleting) = false) .siteDeleting
      Store.createPublishTask (db.reconcilePublishTasks now) siteID taskID deadline now) :=
  rfl

namespace Exclusion

open Store

/-- How far a `PublishSite` call with a task of its own has come. -/
inductive PublishStage
  | created
  | dispatching
  /-- It renders, and then commits. -/
  | applying
  /-- It has committed, without targets. -/
  | committed
  deriving DecidableEq

structure PublishCall where
  siteID : String
  taskID : String
  configVersion : Nat
  stage : PublishStage
  deriving DecidableEq

/-- The statement that `advance` executes next. -/
inductive DeletionStage
  /-- It reads the job. -/
  | advancing
  | withdrawing
  /-- It has called the DNS provider and rendered, or does so now. -/
  | staging
  /-- `SiteDeletionReady` begins. -/
  | asking
  | confirming (deadline : Option Time)
  | counting (deadline : Option Time)
  | timingOut (counts : TaskNodeCounts)
  /-- A target has failed. -/
  | ending (counts : TaskNodeCounts)
  /-- Every target has confirmed. -/
  | confirmed
  /-- It has called the certificate cleaner, or does so now. -/
  | finalizing
  deriving DecidableEq

structure DeletionCall where
  taskID : String
  stage : DeletionStage
  deriving DecidableEq

structure State where
  db : Store
  publish : Option PublishCall
  deletion : Option DeletionCall
  reconciles : List Reconciling.Call

/-- The tables that decide nothing here. -/
structure OtherTables where
  sites : Table Site
  siteDomains : Table SiteDomain
  certificates : Table CertificateRow
  sitePublications : Table SitePublication
  enrollmentTokens : Table EnrollmentToken
  securityPolicies : List SecurityPolicy
  rateLimitPolicies : List RateLimitPolicy
  cacheDefaultSizeGB : Int
  issuedIDs : List String

inductive Action
  | publishSite (siteID taskID : String) (now : Time)
  | publishStep (rendered : List NodeStateUpdate × List PublishTaskNode) (now : Time)
  | publishFails (detail : String) (now : Time)
  /-- What `PublishAll` and `PublishNode` write. -/
  | saveNodeStates (updates : List NodeStateUpdate) (now : Time)
  | beginSiteDeletion (siteID taskID actor remoteAddr : String) (now : Time)
  /-- `Reconcile` or `Status` goes on with an active deletion. -/
  | advanceDeletion (taskID : String)
  | deletionStep (rendered : List NodeStateUpdate × List PublishTaskNode) (now : Time)
  | deletionFails (detail : String) (now : Time)
  | reconcilePublishTasks
  /-- The reconciliation `i` executes its next statement. -/
  | reconcileStep (i : Nat) (now : Time)
  | recordPublishApply (nodeID : String) (report : ApplyReport) (now : Time)
  /-- The `UPDATE nodes` statement of a heartbeat. -/
  | heartbeatNode (nodeID : String) (appliedVersion : Nat)
      (lastError agentVersion agentSHA256 activeUpgradeID : String) (now : Time)
  /-- A node operation other than a heartbeat. -/
  | node (op : NodeOp) (now : Time)
  | startUpgrade (nodeID id targetSHA256 : String) (deadline now : Time)
  | upgradeReport (nodeID : String) (report : NodeUpgradeReport) (now : Time)
  | reconcileNodeUpgrades (now : Time)
  | failActiveNodeUpgrade (nodeID code detail : String) (now : Time)
  | certificateTask (kind : TaskKind) (siteID taskID detail : String) (now : Time)
  /-- A certificate job writes its task. -/
  | updateCertificateTask (taskID : String) (status : TaskStatus) (detail : String) (now : Time)
  | failActiveCertificateTasks (detail : String) (now : Time)
  | otherTables (tables : OtherTables)
  | restart

def initial : State where
  db := Store.empty
  publish := none
  deletion := none
  reconciles := []

/-! ### Publishing -/

def State.startPublish (s : State) (siteID taskID : String) (now : Time) : State :=
  match s.publish, s.db.getSite siteID with
  | none, .ok site =>
    if site.deleting then s
    else match s.db.createPublishTask siteID taskID (now + publishTimeout) now with
      | .ok (task, true, db) =>
        { s with db := db, publish := some ⟨siteID, task.id, site.configVersion, .created⟩ }
      | .ok (_, false, _) | .error _ => s
  | _, _ => s

def State.publishStep (s : State) (call : PublishCall)
    (rendered : List NodeStateUpdate × List PublishTaskNode) (now : Time) : State :=
  match call.stage with
  | .created =>
    match s.db.updateTask call.taskID .dispatching "building node configurations" now with
    | .ok db => { s with db := db, publish := some { call with stage := .dispatching } }
    | .error _ => { s with publish := none }
  | .dispatching =>
    match s.db.updateTask call.taskID .applying "preparing edge configuration confirmation" now with
    | .ok db => { s with db := db, publish := some { call with stage := .applying } }
    | .error _ => { s with publish := none }
  | .applying =>
    match s.db.commitSitePublication call.siteID call.configVersion call.taskID rendered.1
        rendered.2 now with
    | .ok (_, db) =>
      { s with
        db := db
        publish := if rendered.2.isEmpty then some { call with stage := .committed } else none }
    | .error _ => s
  | .committed =>
    { s with
      db := s.db.setTask call.taskID .succeeded
        "configuration staged; no active assigned edge nodes to confirm" now
      publish := none }

/-! ### Deleting -/

/-- `SiteDeletionReady` goes on from its counts, the pending targets having been timed out. -/
def afterSettling (counts : TaskNodeCounts) : Option DeletionStage :=
  if 0 < counts.failed then some (.ending counts)
  else if counts.total = 0 ∨ counts.succeeded = counts.total then some .confirmed
  else none

/-- It has counted the targets. -/
def afterCounting (counts : TaskNodeCounts) (deadline : Option Time) (now : Time) :
    Option DeletionStage :=
  if 0 < counts.pending then
    if expired deadline now then some (.timingOut counts) else none
  else afterSettling counts

/-- The database after the next statement of the deletion, and the stage that follows, if the call
is not over; none if the statement fails. -/
def deletionStatement (db : Store) (call : DeletionCall)
    (rendered : List NodeStateUpdate × List PublishTaskNode) (now : Time) :
    Option (Store × Option DeletionStage) :=
  match call.stage with
  | .advancing =>
    match db.siteDeletionJobForTask call.taskID with
    | none => some (db, none)
    | some job =>
      match job.phase with
      | .withdrawingDNS => some (db, some .withdrawing)
      | .waitingForEdges => some (db, some .asking)
      | .finalizing => some (db, some .finalizing)
  | .withdrawing =>
    (db.setSiteDeletionPhase call.taskID .withdrawingDNS .dispatching
      "withdrawing managed DNS records" now).toOption.map fun db => (db, some .staging)
  | .staging =>
    (db.stageSiteDeletion call.taskID rendered.1 rendered.2 now).toOption.map fun db =>
      (db, some .advancing)
  | .asking =>
    (db.getTask call.taskID).toOption.map fun task =>
      (db, if task.status.active then some (.confirming task.deadlineAt) else none)
  | .confirming deadline => some (db.confirmApplied call.taskID now, some (.counting deadline))
  | .counting deadline =>
    some (db, afterCounting (db.deploymentTaskNodeCounts call.taskID) deadline now)
  | .timingOut counts =>
    some (db.timeOutPending call.taskID
      "edge did not confirm site removal before the deletion deadline",
      afterSettling { counts with failed := counts.failed + counts.pending })
  | .ending counts =>
    (db.updateTask call.taskID (deletionOutcome counts).1 (deletionOutcome counts).2
      now).toOption.map fun db => (db, none)
  | .confirmed =>
    (db.setSiteDeletionPhase call.taskID .finalizing .applying
      "edge removal confirmed; cleaning certificate material" now).toOption.map fun db =>
        (db, some .advancing)
  | .finalizing => (db.completeSiteDeletion call.taskID now).toOption.map fun db => (db, none)

def State.deletionStep (s : State) (call : DeletionCall)
    (rendered : List NodeStateUpdate × List PublishTaskNode) (now : Time) : State :=
  match deletionStatement s.db call rendered now with
  | some (db, next) =>
    { s with db := db, deletion := next.map fun stage => { call with stage := stage } }
  | none => s

/-! ### All actions -/

def State.tryWrite (s : State) (result : Except StoreError Store) : State :=
  match result with
  | .ok db => { s with db := db }
  | .error _ => s

/-- A heartbeat consists of statements of its own. -/
def isHeartbeat : NodeOp → Bool
  | .heartbeat .. => true
  | _ => false

def State.reconcileStep (s : State) (i : Nat) (call : Reconciling.Call) (now : Time) : State :=
  match call.tasks with
  | [] => s
  | (taskID, deadline) :: _ =>
    match Reconciling.execute s.db taskID deadline now call.next with
    | .ok (db, next) => { s with db := db, reconciles := s.reconciles.set i (call.after next) }
    | .error _ => { s with reconciles := s.reconciles.eraseIdx i }

/-- The task is one of a certificate job. -/
def certificateTask (db : Store) (taskID : String) : Bool :=
  (db.deploymentTasks.find? taskID).any fun task => task.kind.certificate

def State.setOtherTables (s : State) (tables : OtherTables) : State :=
  { s with
    db := {
      s.db with
      sites := tables.sites
      siteDomains := tables.siteDomains
      certificates := tables.certificates
      sitePublications := tables.sitePublications
      enrollmentTokens := tables.enrollmentTokens
      securityPolicies := tables.securityPolicies
      rateLimitPolicies := tables.rateLimitPolicies
      cacheDefaultSizeGB := tables.cacheDefaultSizeGB
      issuedIDs := tables.issuedIDs ++ s.db.issuedIDs } }

def step (s : State) : Action → State
  | .publishSite siteID taskID now => s.startPublish siteID taskID now
  | .publishStep rendered now =>
    match s.publish with
    | some call => s.publishStep call rendered now
    | none => s
  | .publishFails detail now =>
    match s.publish with
    | some call => { s with db := s.db.setTask call.taskID .failed detail now, publish := none }
    | none => s
  | .saveNodeStates updates now => s.tryWrite (Store.saveNodeStates now updates s.db)
  | .beginSiteDeletion siteID taskID actor remoteAddr now =>
    match s.deletion,
        s.db.beginSiteDeletion siteID taskID actor remoteAddr (now + deletionTimeout) now with
    | none, .ok (task, _, db) => { s with db := db, deletion := some ⟨task.id, .advancing⟩ }
    | _, _ => s
  | .advanceDeletion taskID =>
    match s.deletion with
    | none =>
      if s.db.taskActive taskID [.deleteSite] then
        { s with deletion := some ⟨taskID, .advancing⟩ }
      else s
    | some _ => s
  | .deletionStep rendered now =>
    match s.deletion with
    | some call => s.deletionStep call rendered now
    | none => s
  | .deletionFails detail now =>
    match s.deletion with
    | some call => { s with db := s.db.failSiteDeletion call.taskID detail now, deletion := none }
    | none => s
  | .reconcilePublishTasks =>
    { s with
      reconciles := s.reconciles ++
        [⟨s.db.activePublishTasks.map fun task => (task.id, task.deadlineAt), .confirm⟩] }
  | .reconcileStep i now =>
    match s.reconciles[i]? with
    | some call => s.reconcileStep i call now
    | none => s
  | .recordPublishApply nodeID report now => s.tryWrite (s.db.recordPublishApply nodeID report now)
  | .heartbeatNode nodeID appliedVersion lastError agentVersion agentSHA256 activeUpgradeID now =>
    { s with
      db := Reconciling.heartbeatNode s.db nodeID appliedVersion lastError agentVersion agentSHA256
        activeUpgradeID now }
  | .node op now => if isHeartbeat op then s else s.tryWrite (op.apply s.db now)
  | .startUpgrade nodeID id targetSHA256 deadline now =>
    s.tryWrite (s.db.createOrGetNodeUpgrade nodeID id targetSHA256 deadline now)
  | .upgradeReport nodeID report now => s.tryWrite (s.db.recordNodeUpgradeReport nodeID report now)
  | .reconcileNodeUpgrades now => { s with db := s.db.reconcileNodeUpgrades now }
  | .failActiveNodeUpgrade nodeID code detail now =>
    { s with db := s.db.failActiveNodeUpgrade nodeID code detail now }
  | .certificateTask kind siteID taskID detail now =>
    s.tryWrite ((s.db.createOrGetActiveCertificateTask kind siteID taskID detail now).map
      fun result => result.2.2)
  | .updateCertificateTask taskID status detail now =>
    if certificateTask s.db taskID then s.tryWrite (s.db.updateTask taskID status detail now) else s
  | .failActiveCertificateTasks detail now =>
    { s with db := s.db.failActiveCertificateTasks detail now }
  | .otherTables tables => s.setOtherTables tables
  | .restart => { s with publish := none, deletion := none, reconciles := [] }

/-! ### The law -/

/-- A node with an active upgrade is not a pending target of an active task, and is not being
uninstalled. -/
structure Exclusive (db : Store) : Prop where
  publication : ∀ n, db.hasActiveNodeUpgrade n = true → db.hasActiveNodePublication n = false
  uninstall : ∀ n, db.hasActiveNodeUpgrade n = true → db.hasActiveNodeUninstall n = false

end Exclusion

end SimpleCdn
