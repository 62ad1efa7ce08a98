import SimpleCdn.Store.Nodes

/-!
# Uninstalling a node

An uninstall is prepared while the node is paused or revoked, gets a token, and is run on the
edge, which reports its start and its end with that token.  While the workflow is open it owns
the node; when it completes, the node keeps its row and nothing else.
-/

namespace SimpleCdn.Store

/-- The open uninstall workflow has one row for each node. -/
def updateUninstallJob (db : Store) (nodeID : String) (f : NodeUninstallJob → NodeUninstallJob)
    (hf : ∀ job, key (f job) = key job := by intro _; rfl) : Store :=
  { db with nodeUninstallJobs := db.nodeUninstallJobs.update (fun job => job.nodeID = nodeID) f hf }

/-- The sites whose draft or publication lists the node, with the identifiers the caller gave. -/
def affectedSites (db : Store) (nodeID : String) (affectedSiteIDs : List String) : List String :=
  (affectedSiteIDs ++
    (db.sites.rows.filter fun site => site.nodes.contains nodeID).map Site.id ++
    (db.sitePublications.rows.filter fun publication =>
      publication.site.nodes.contains nodeID).map fun publication => publication.site.id).dedup

/-- `PrepareNodeUninstall`; a workflow that is already open is left alone. -/
def prepareNodeUninstall (db : Store) (nodeID : String) (affectedSiteIDs : List String)
    (readyAt now : Time) : Except StoreError Store := do
  let node ← db.getNode nodeID
  require (db.hasActiveNodeUpgrade nodeID = false) .nodeUpgradeActive
  require (node.activeUpgradeID = "") .upgradeRetryNotReady
  require (node.status = .draining ∨ node.status = .revoked)
    (.message "node must be paused or revoked before uninstall")
  if db.hasActiveNodeUninstall nodeID then return db
  else return { db with
    nodeUninstallJobs := db.nodeUninstallJobs.upsert
      { nodeID := nodeID
        status := .preparing
        previousStatus := node.status
        tokenHash := none
        tokenExpiresAt := none
        readyAt := readyAt
        affectedSiteIDs := db.affectedSites nodeID affectedSiteIDs
        detail := ""
        forced := false
        startedAt := none
        completedAt := none
        createdAt := now
        updatedAt := now } }

/-- The open states in which a token may be issued and the workflow canceled. -/
def uninstallJobWaits : NodeUninstallJobStatus → Bool
  | .preparing | .ready | .failed => true
  | _ => false

def nodeUninstallJob (db : Store) (nodeID : String) : Except StoreError NodeUninstallJob :=
  orError (db.nodeUninstallJobs.find? nodeID) .notFound

def issueNodeUninstallToken (db : Store) (nodeID token : String) (expiresAt now : Time) :
    Except StoreError Store := do
  require (Text.trimSpace token ≠ "") (.message "uninstall token is required")
  let job ← orError (db.nodeUninstallJobs.find? nodeID) .uninstallActive
  require (uninstallJobWaits job.status = true) .uninstallActive
  return db.updateUninstallJob nodeID fun job =>
    { job with
      status := .ready, tokenHash := some token, tokenExpiresAt := some expiresAt, detail := "",
      updatedAt := now }

/-- `uninstallJobByToken`, with the check of its expiry. -/
def uninstallJobByToken (db : Store) (token : String) (now : Time) :
    Except StoreError NodeUninstallJob := do
  require (Text.trimSpace token ≠ "") .tokenInvalid
  let job ← orError (db.nodeUninstallJobs.rows.find? fun job => job.tokenHash = some token)
    .tokenInvalid
  require (job.tokenExpiresAt.any (fun expiresAt => now < expiresAt) = true) .tokenInvalid
  return job

def startNodeUninstall (db : Store) (token : String) (now : Time) : Except StoreError Store := do
  let job ← db.uninstallJobByToken token now
  match job.status with
  | .succeeded => return db
  | .forced =>
    return db.updateUninstallJob job.nodeID fun job =>
      { job with startedAt := some (job.startedAt.getD now), updatedAt := now }
  | .ready | .running | .failed =>
    return (db.updateUninstallJob job.nodeID fun job =>
      { job with
        status := .running, startedAt := some (job.startedAt.getD now), detail := "",
        updatedAt := now }).updateNode job.nodeID fun node =>
          { node with status := .uninstalling, updatedAt := now }
  | _ => throw .tokenInvalid

def failNodeUninstall (db : Store) (token detail : String) (now : Time) :
    Except StoreError Store := do
  let job ← db.uninstallJobByToken token now
  match job.status with
  | .succeeded | .forced => return db
  | .running | .failed =>
    return (db.updateUninstallJob job.nodeID fun job =>
      { job with status := .failed, detail := detail, updatedAt := now }).updateNode job.nodeID
        fun node =>
          { node with status := job.previousStatus, lastError := detail, updatedAt := now }
  | _ => throw .tokenInvalid

/-- The rows of an uninstalled node that are deleted. -/
def forgetNode (db : Store) (nodeID : String) : Store :=
  { db with
    enrollmentTokens := db.enrollmentTokens.delete fun token => token.nodeID = nodeID
    nodeStates := db.nodeStates.delete fun row => row.nodeID = nodeID }

/-- The transaction helper `completeNodeUninstall`. -/
def finishNodeUninstall (db : Store) (nodeID : String) (status : NodeUninstallJobStatus)
    (forced : Bool) (detail : String) (now : Time) : Store :=
  ((db.updateUninstallJob nodeID fun job =>
    { job with
      status := status, detail := detail, forced := forced, completedAt := some now,
      updatedAt := now }).updateNode nodeID fun node =>
        { node with
          status := .uninstalled, certFingerprint := none, lastError := "", updatedAt := now
        }).forgetNode nodeID

def completeNodeUninstall (db : Store) (token : String) (now : Time) :
    Except StoreError Store := do
  let job ← db.uninstallJobByToken token now
  match job.status with
  | .succeeded => return db
  | .forced =>
    require (job.startedAt.isSome = true) .tokenInvalid
    return db.finishNodeUninstall job.nodeID .succeeded false "" now
  | .running => return db.finishNodeUninstall job.nodeID .succeeded false "" now
  | _ => throw .tokenInvalid

def forceCompleteNodeUninstall (db : Store) (nodeID detail : String) (now : Time) :
    Except StoreError Store := do
  let job ← db.nodeUninstallJob nodeID
  require (job.status.blocksStatus = true) .uninstallNotActive
  return db.finishNodeUninstall nodeID .forced true detail now

def cancelNodeUninstall (db : Store) (nodeID : String) (now : Time) :
    Except StoreError Store := do
  let job ← db.nodeUninstallJob nodeID
  require (job.status.blocksStatus = true) .uninstallNotActive
  require (uninstallJobWaits job.status = true) .uninstallActive
  return db.updateUninstallJob nodeID fun job =>
    { job with
      status := .canceled, tokenHash := none, tokenExpiresAt := none, detail := "",
      updatedAt := now }

end SimpleCdn.Store
