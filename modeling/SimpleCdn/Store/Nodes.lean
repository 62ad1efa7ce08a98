import SimpleCdn.Domain.Validate
import SimpleCdn.Store.Publication

/-!
# Nodes

The operations on the `nodes` table and the enrollment tokens: creating a node, its settings, its
status, its certificate, and heartbeats.  A node's client certificate is known by its
fingerprint; the column holds the one certificate the control plane accepts.
-/

namespace SimpleCdn.Store

/-- `UPDATE nodes SET … WHERE id = ?`. -/
def updateNode (db : Store) (nodeID : String) (f : Node → Node)
    (hf : ∀ node, key (f node) = key node := by intro _; rfl) : Store :=
  { db with nodes := db.nodes.update (fun node => node.id = nodeID) f hf }

def getNode (db : Store) (id : String) : Except StoreError Node :=
  orError (db.nodes.find? id) .notFound

/-- `CreateNode`, of an address that is already parsed. -/
def createNode (db : Store) (id name publicIPv4 : String) (now : Time) :
    Except StoreError (Node × Store) := do
  require (Text.trimSpace name ≠ "") (.message "node name is required")
  let db ← db.newID id
  let node : Node :=
    { id := id
      name := Text.trimSpace name
      publicIPv4 := publicIPv4
      cacheMaxSizeGB := none
      nginxCapacity := ⟨0, 4096, 65536⟩
      status := .pending
      monitorAutoPaused := false
      capabilities := []
      certFingerprint := none
      agentVersion := ""
      agentSHA256 := ""
      activeUpgradeID := ""
      lastHeartbeatAt := none
      appliedVersion := 0
      lastError := ""
      createdAt := now
      updatedAt := now }
  require (db.nodes.any (fun other =>
    other.name = node.name || other.publicIPv4 = node.publicIPv4) = false)
    (.wrapped "create node" .constraint)
  let nodes ← orError (db.nodes.insert? node) (.wrapped "create node" .constraint)
  return (node, { db with nodes := nodes })

/-! ### Settings an edge configuration depends on -/

/-- A size of its own is checked; without one the node takes the default. -/
def checkCacheMaxSizeGB (size : Option Int) : Except StoreError Unit :=
  match size with
  | some size => (validateCacheMaxSizeGB size).mapError StoreError.message
  | none => .ok ()

def setNodeCacheMaxSizeGB (db : Store) (nodeID : String) (size : Option Int) (now : Time) :
    Except StoreError Store := do
  checkCacheMaxSizeGB size
  let _ ← db.getNode nodeID
  return db.updateNode nodeID fun node => { node with cacheMaxSizeGB := size, updatedAt := now }

def setNodeNginxCapacity (db : Store) (nodeID : String) (capacity : NginxCapacity) (now : Time) :
    Except StoreError Store := do
  let capacity ← (normalizeNginxCapacity capacity).mapError StoreError.message
  let _ ← db.getNode nodeID
  return db.updateNode nodeID fun node => { node with nginxCapacity := capacity, updatedAt := now }

/-- `SetNodeCapabilities`, of a list that is already normalised. -/
def setNodeCapabilities (db : Store) (nodeID : String) (capabilities : List String) (now : Time) :
    Except StoreError Store := do
  let _ ← db.getNode nodeID
  return db.updateNode nodeID fun node =>
    { node with capabilities := capabilities, updatedAt := now }

/-! ### Certificates and enrollment -/

/-- `NodeIDByFingerprint`: whose request a client certificate authenticates. -/
def nodeIDByFingerprint (db : Store) (fingerprint : String) : Except StoreError String :=
  match db.nodes.rows.find? fun node =>
      node.certFingerprint = some fingerprint && !node.status.retired with
  | some node => .ok node.id
  | none => .error .notFound

def setNodeCertificate (db : Store) (nodeID fingerprint : String) (now : Time) :
    Except StoreError Store := do
  let node ← db.getNode nodeID
  require (node.status.retired = false ∧ db.hasActiveNodeUninstall nodeID = false) .notFound
  return db.updateNode nodeID fun node =>
    { node with certFingerprint := some fingerprint, updatedAt := now }

def createEnrollmentToken (db : Store) (nodeID token : String) (expiresAt now : Time) :
    Except StoreError Store := do
  let node ← db.getNode nodeID
  require (node.status.retired = false)
    (.message "cannot enroll a revoked, uninstalling, or uninstalled node")
  require (db.hasActiveNodeUninstall nodeID = false) .uninstallActive
  let tokens ← orError (db.enrollmentTokens.insert? ⟨token, nodeID, expiresAt, none, now⟩)
    .constraint
  return { db with enrollmentTokens := tokens }

def consumeEnrollmentToken (db : Store) (token : String) (now : Time) :
    Except StoreError (String × Store) := do
  let row ← orError (db.enrollmentTokens.find? token) .tokenInvalid
  let node ← orError (db.nodes.find? row.nodeID) .tokenInvalid
  require (node.status.retired = false ∧ db.hasActiveNodeUninstall row.nodeID = false ∧
    row.usedAt = none ∧ now < row.expiresAt) .tokenInvalid
  return (row.nodeID, { db with
    enrollmentTokens := db.enrollmentTokens.update (fun token => token.tokenHash = row.tokenHash)
      (fun token => { token with usedAt := some now }) })

/-! ### Status -/

/-- The rows that revoking a node changes besides its own: unused tokens are withdrawn, the
uninstall workflow comes back to the new status, and a running upgrade fails. -/
def withdrawAuthorization (db : Store) (nodeID : String) (now : Time) : Store :=
  { db with
    enrollmentTokens := db.enrollmentTokens.delete fun token =>
      token.nodeID = nodeID && token.usedAt.isNone
    nodeUninstallJobs := db.nodeUninstallJobs.update
      (fun job => job.nodeID = nodeID && job.status.blocksStatus)
      (fun job => { job with previousStatus := .revoked, updatedAt := now })
    nodeUpgradeTasks := db.nodeUpgradeTasks.update
      (fun task => task.nodeID = nodeID && task.status.active)
      (fun task =>
        { task with
          status := .failed, errorCode := "authorization_revoked",
          detail := "node authorization was revoked during online upgrade",
          completedAt := some now, updatedAt := now }) }

def setNodeStatus (db : Store) (nodeID : String) (status : NodeStatus) (now : Time) :
    Except StoreError Store := do
  require (status = .active ∨ status = .draining ∨ status = .revoked ∨ status = .pending)
    (.message "invalid node status")
  let node ← db.getNode nodeID
  require (node.status ≠ .uninstalling ∧ node.status ≠ .uninstalled)
    (.message "uninstalling or uninstalled nodes cannot change status")
  require (db.hasActiveNodeUninstall nodeID = false ∨ status = node.status ∨ status = .revoked)
    .uninstallActive
  if status = .revoked then
    return (db.updateNode nodeID fun node =>
      { node with
        status := .revoked, monitorAutoPaused := false, certFingerprint := none,
        activeUpgradeID := "", updatedAt := now }).withdrawAuthorization nodeID now
  else
    return db.updateNode nodeID fun node =>
      { node with status := status, monitorAutoPaused := false, updatedAt := now }

/-- `MonitoringAutoPauseAfter`. -/
def monitoringAutoPauseAfter : Nat := 4

/-- What a monitoring round makes of a status, from the number of consecutive abnormal rounds. -/
def monitoredStatus (status : NodeStatus) (autoPaused : Bool) (consecutiveAbnormal : Nat) :
    NodeStatus × Bool :=
  if monitoringAutoPauseAfter ≤ consecutiveAbnormal ∧ status = .active then (.draining, true)
  else if consecutiveAbnormal = 0 ∧ autoPaused = true ∧ status = .draining then (.active, false)
  else (status, autoPaused)

/-- `RecordMonitoringRound`, its effect on the node. -/
def recordMonitoringRound (db : Store) (nodeID : String) (consecutiveAbnormal : Nat) (now : Time) :
    Except StoreError Store := do
  let _ ← db.getNode nodeID
  return db.updateNode nodeID fun node =>
    let (status, autoPaused) :=
      monitoredStatus node.status node.monitorAutoPaused consecutiveAbnormal
    { node with
      status := status, monitorAutoPaused := autoPaused,
      updatedAt :=
        if node.status ≠ status ∨ node.monitorAutoPaused ≠ autoPaused then now
        else node.updatedAt }

/-- A heartbeat may carry an apply report. -/
def recordReport (db : Store) (nodeID : String) (report : Option ApplyReport) (now : Time) :
    Except StoreError Store :=
  match report with
  | some report => db.recordPublishApply nodeID report now
  | none => .ok db

/-- `HeartbeatWithAgentVersion`, up to the reconciliation of node upgrades. -/
def heartbeat (db : Store) (nodeID : String) (appliedVersion : Nat) (lastError : String)
    (report : Option ApplyReport) (agentVersion agentSHA256 activeUpgradeID : String)
    (now : Time) : Except StoreError Store := do
  let db ← db.recordReport nodeID report now
  let _ ← db.getNode nodeID
  let db := db.updateNode nodeID fun node =>
    { node with
      status := if node.status = .pending then .active else node.status
      lastHeartbeatAt := some now
      appliedVersion := max node.appliedVersion appliedVersion
      agentVersion := agentVersion
      agentSHA256 := if agentSHA256 = "" then node.agentSHA256 else agentSHA256
      activeUpgradeID := activeUpgradeID
      lastError := lastError
      updatedAt := now }
  return db.reconcilePublishTasks now

/-! ### Deleting a node -/

/-- `DeleteNode`, with the rows that reference the node by a cascading foreign key. -/
def deleteNode (db : Store) (nodeID : String) : Except StoreError Store := do
  require (db.sites.any (fun site => site.nodes.contains nodeID) = false) .nodeAssigned
  require (db.sitePublications.any
    (fun publication => publication.site.nodes.contains nodeID) = false) .nodeAssigned
  let _ ← db.getNode nodeID
  return { db with
    nodes := db.nodes.delete fun node => node.id = nodeID
    enrollmentTokens := db.enrollmentTokens.delete fun token => token.nodeID = nodeID
    nodeStates := db.nodeStates.delete fun row => row.nodeID = nodeID
    publishTaskNodes := db.publishTaskNodes.delete fun row => row.nodeID = nodeID
    nodeUninstallJobs := db.nodeUninstallJobs.delete fun job => job.nodeID = nodeID
    nodeUpgradeTasks := db.nodeUpgradeTasks.delete fun task => task.nodeID = nodeID }

/-- The handler's guard: an uninstalled node, or a pending one that never reported. -/
def nodeCanBeDeleted (db : Store) (node : Node) : Bool :=
  node.status = .uninstalled ||
    (node.status = .pending && node.lastHeartbeatAt.isNone && node.appliedVersion = 0 &&
      node.certFingerprint.isNone && (db.nodeState node.id).isNone)

end SimpleCdn.Store
