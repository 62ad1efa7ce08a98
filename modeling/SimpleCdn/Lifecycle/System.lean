import SimpleCdn.Lib.Transition
import SimpleCdn.Lifecycle.Card
import SimpleCdn.Reconciling.System
import SimpleCdn.Store.Monitoring
import SimpleCdn.Store.Upgrades

/-!
# Requests of edges and the operations on nodes

The control plane authenticates a request of an edge by the fingerprint of its certificate, and
its handler then executes its statements one by one; whatever else happens to the node may come
in between.  Enrollment is such a request as well, admitted by its token.

A signed certificate has a fingerprint of its own and a new token is not an old one, so neither
is drawn twice.  `late` marks the requests that were under way when their node was revoked or its
uninstall started or ended, and `revokedTasks` lists the upgrade tasks that revocations have
failed; no step reads them.
-/

namespace SimpleCdn.Lifecycle

open Store Transition

/-- What the handlers of edge requests execute after the authentication. -/
inductive Statement
  | setNodeCapabilities (capabilities : List String)
  | recordReport (report : Option ApplyReport)
  | updateNode (appliedVersion : Nat) (lastError agentVersion agentSHA256 activeUpgradeID : String)
  | reconcileNodeUpgrades
  | reconcilePublishTasks
  | setNodeCertificate (fingerprint : String)
  | recordMonitoringRound (round : MonitoringRound)
  | recordNodeUpgradeReport (report : NodeUpgradeReport)

/-- The requests an edge sends with its certificate; a renewal is given a new fingerprint. -/
inductive EdgeCall
  | heartbeat (capabilities : List String) (appliedVersion : Nat) (lastError : String)
      (report : Option ApplyReport) (agentVersion agentSHA256 activeUpgradeID : String)
  | renew (fingerprint : String)
  | monitoringReport (round : MonitoringRound)
  | upgradeReport (report : NodeUpgradeReport)

def EdgeCall.statements : EdgeCall → List Statement
  | .heartbeat capabilities appliedVersion lastError report agentVersion agentSHA256
      activeUpgradeID =>
    [.setNodeCapabilities capabilities, .recordReport report,
      .updateNode appliedVersion lastError agentVersion agentSHA256 activeUpgradeID,
      .reconcileNodeUpgrades, .reconcilePublishTasks]
  | .renew fingerprint => [.setNodeCertificate fingerprint]
  | .monitoringReport round => [.recordMonitoringRound round]
  | .upgradeReport report => [.recordNodeUpgradeReport report]

/-- A handler that has authenticated its request. -/
structure Request where
  nodeID : String
  statements : List Statement
  late : Bool

structure State where
  db : MonitoredStore
  requests : List Request
  /-- The fingerprints that have been drawn so far, and the tokens. -/
  fingerprints : List String
  tokens : List String
  revokedTasks : List String

inductive Action
  /-- An administrator or the uninstall script. -/
  | node (op : NodeOp) (now : Time)
  | monitoringTarget (op : TargetOp) (now : Time)
  | startUpgrade (nodeID id targetSHA256 : String) (deadline now : Time)
  /-- The control plane's own rounds. -/
  | reconcileNodeUpgrades (now : Time)
  | enroll (token fingerprint : String) (now : Time)
  | request (fingerprint : String) (call : EdgeCall)
  /-- The request `i` executes its next statement. -/
  | statement (i : Nat) (now : Time)

def initial : State where
  db := MonitoredStore.empty
  requests := []
  fingerprints := []
  tokens := []
  revokedTasks := []

/-- An operation on the tables without monitoring. -/
def onStore (db : MonitoredStore) (x : Except StoreError Store) :
    Except StoreError MonitoredStore := do
  let store ← x
  return { db with toStore := store }

/-- The `UPDATE nodes` statement of a heartbeat; it fails when there is no row. -/
def heartbeatNode (db : Store) (nodeID : String) (appliedVersion : Nat)
    (lastError agentVersion agentSHA256 activeUpgradeID : String) (now : Time) :
    Except StoreError Store := do
  let _ ← db.getNode nodeID
  return Reconciling.heartbeatNode db nodeID appliedVersion lastError agentVersion agentSHA256
    activeUpgradeID now

def Statement.execute (db : MonitoredStore) (nodeID : String) (now : Time) :
    Statement → Except StoreError MonitoredStore
  | .setNodeCapabilities capabilities =>
    onStore db (db.toStore.setNodeCapabilities nodeID capabilities now)
  | .recordReport report => onStore db (db.toStore.recordReport nodeID report now)
  | .updateNode appliedVersion lastError agentVersion agentSHA256 activeUpgradeID =>
    onStore db (heartbeatNode db.toStore nodeID appliedVersion lastError agentVersion agentSHA256
      activeUpgradeID now)
  | .reconcileNodeUpgrades => onStore db (.ok (db.toStore.reconcileNodeUpgrades now))
  | .reconcilePublishTasks => onStore db (.ok (db.toStore.reconcilePublishTasks now))
  | .setNodeCertificate fingerprint =>
    onStore db (db.toStore.setNodeCertificate nodeID fingerprint now)
  | .recordMonitoringRound round => db.recordMonitoringRound nodeID round now
  | .recordNodeUpgradeReport report =>
    onStore db (db.toStore.recordNodeUpgradeReport nodeID report now)

/-- The fingerprint a statement is given, and the token of an operation. -/
def Statement.fingerprints : Statement → List String
  | .setNodeCertificate fingerprint => [fingerprint]
  | _ => []

def tokensOf : NodeOp → List String
  | .createEnrollmentToken _ token _ => [token]
  | _ => []

/-- Heartbeats and monitoring rounds come with requests. -/
def byEdge : NodeOp → Bool
  | .heartbeat .. | .recordMonitoringRound .. => true
  | _ => false

/-- The upgrade tasks that an operation fails because it withdraws the node's authorization. -/
def revokedBy (db : Store) : NodeOp → List String
  | .setNodeStatus nodeID .revoked =>
    (db.nodeUpgradeTasks.rows.filter fun task =>
      task.nodeID = nodeID && task.status.active).map NodeUpgradeTask.id
  | _ => []

/-- The node has been shut out. -/
def nodeRetired (db : Store) (nodeID : String) : Bool :=
  (db.nodes.find? nodeID).any fun node => node.status.retired

def State.nodeOp (s : State) (op : NodeOp) (now : Time) : State :=
  match s.db.applyNodeOp now op with
  | .ok db =>
    { s with
      db := db
      requests := s.requests.map fun request =>
        { request with late := request.late || nodeRetired db.toStore request.nodeID }
      tokens := tokensOf op ++ s.tokens
      revokedTasks := revokedBy s.db.toStore op ++ s.revokedTasks }
  | .error _ => { s with tokens := tokensOf op ++ s.tokens }

/-- A handler whose statement fails is over. -/
def State.execute (s : State) (i : Nat) (request : Request) (statement : Statement)
    (rest : List Statement) (now : Time) : State :=
  match statement.execute s.db request.nodeID now with
  | .ok db =>
    { s with
      db := db
      requests := s.requests.set i { request with statements := rest }
      fingerprints := statement.fingerprints ++ s.fingerprints }
  | .error _ =>
    { s with
      requests := s.requests.eraseIdx i
      fingerprints := statement.fingerprints ++ s.fingerprints }

def State.onDatabase (s : State) (x : Except StoreError MonitoredStore) : State :=
  match x with
  | .ok db => { s with db := db }
  | .error _ => s

/-- An admitted request. -/
def State.enqueue (s : State) (nodeID : String) (statements : List Statement) : State :=
  { s with requests := s.requests ++ [⟨nodeID, statements, false⟩] }

/-- The statement that the request `i` executes next. -/
def State.next (s : State) (i : Nat) : Option (Request × Statement × List Statement) :=
  match s.requests[i]? with
  | some request =>
    match request.statements with
    | statement :: rest => some (request, statement, rest)
    | [] => none
  | none => none

def step (s : State) : Action → State
  | .node op now =>
    if byEdge op || (tokensOf op).any s.tokens.contains then s else s.nodeOp op now
  | .monitoringTarget op now => s.onDatabase (op.apply s.db now)
  | .startUpgrade nodeID id targetSHA256 deadline now =>
    s.onDatabase (onStore s.db
      (s.db.toStore.createOrGetNodeUpgrade nodeID id targetSHA256 deadline now))
  | .reconcileNodeUpgrades now =>
    s.onDatabase (onStore s.db (.ok (s.db.toStore.reconcileNodeUpgrades now)))
  | .enroll token fingerprint now =>
    match s.db.toStore.consumeEnrollmentToken token now with
    | .ok (nodeID, store) =>
      { s with db := { s.db with toStore := store } }.enqueue nodeID
        [.setNodeCertificate fingerprint]
    | .error _ => s
  | .request fingerprint call =>
    match s.db.toStore.nodeIDByFingerprint fingerprint with
    | .ok nodeID => s.enqueue nodeID call.statements
    | .error _ => s
  | .statement i now =>
    match s.next i with
    | some (request, statement, rest) =>
      if statement.fingerprints.any s.fingerprints.contains then s
      else s.execute i request statement rest now
    | none => s

/-! ### The card of a node -/

/-- The tokens with which the node may still be enrolled. -/
def openTokens (db : Store) (n : String) : List String :=
  (db.enrollmentTokens.rows.filter fun token =>
    token.nodeID = n && token.usedAt.isNone).map EnrollmentToken.tokenHash

def cardOf (node : Node) (job : Option NodeUninstallJob) (openTokens : List String)
    (upgrading : Bool) : Card where
  status := node.status
  autoPaused := node.monitorAutoPaused
  fingerprint := node.certFingerprint
  upgradeID := node.activeUpgradeID
  job := job.map fun job => (job.status, job.previousStatus)
  openTokens := openTokens
  upgrading := upgrading

/-- The card of a node, as the tables have it. -/
def card (db : Store) (n : String) : Option Card :=
  (db.nodes.find? n).map fun node =>
    cardOf node (db.nodeUninstallJobs.find? n) (openTokens db n) (db.hasActiveNodeUpgrade n)

end SimpleCdn.Lifecycle
