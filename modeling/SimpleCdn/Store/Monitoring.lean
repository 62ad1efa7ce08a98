import SimpleCdn.Store.NodeOps

/-!
# Monitoring

Edges probe the enabled monitoring targets and report a round of results.  A node whose rounds
are abnormal several times in a row is paused, and the first healthy round resumes a node that
monitoring has paused.  A change of the targets starts over, and when no enabled target is left
every paused node is resumed.

The score of a round is computed with floating point numbers from the probes' attempts and
latencies; a round carries it.  Names and addresses of targets are taken as normalised.
-/

namespace SimpleCdn

structure MonitoringTarget where
  id : String
  name : String
  address : String
  enabled : Bool
  createdAt : Time
  updatedAt : Time
  deriving DecidableEq, Repr

structure NodeMonitoringStatus where
  nodeID : String
  score : Int
  consecutiveAbnormal : Nat
  lastCheckedAt : Time
  updatedAt : Time
  deriving DecidableEq, Repr

structure MonitoringProbeResult where
  targetID : String
  checkedAt : Time
  deriving DecidableEq, Repr

/-- The results of a round, with the score that `scoreMonitoringRound` gives them. -/
structure MonitoringRound where
  results : List MonitoringProbeResult
  score : Int
  deriving DecidableEq, Repr

instance : Keyed MonitoringTarget String := ⟨MonitoringTarget.id⟩
instance : Keyed NodeMonitoringStatus String := ⟨NodeMonitoringStatus.nodeID⟩

@[simp] theorem key_monitoringTarget (target : MonitoringTarget) : key target = target.id := rfl
@[simp] theorem key_nodeMonitoringStatus (status : NodeMonitoringStatus) :
    key status = status.nodeID := rfl

/-- `MonitoringHealthyScore`. -/
def monitoringHealthyScore : Int := 80

/-- `MaxMonitoringTargets`. -/
def maxMonitoringTargets : Nat := 32

/-- The time of the latest probe of the round. -/
def MonitoringRound.lastCheckedAt (round : MonitoringRound) : Time :=
  round.results.foldl (fun latest result => max latest result.checkedAt) 0

def monitoringResultsMatchTargets (results : List MonitoringProbeResult)
    (targetIDs : List String) : Bool :=
  let reported := (results.map MonitoringProbeResult.targetID).insertionSort (· ≤ ·)
  reported = targetIDs && decide reported.Nodup

/-- The database with the tables of the monitoring. -/
structure MonitoredStore extends Store where
  monitoringTargets : Table MonitoringTarget
  nodeMonitoringStatuses : Table NodeMonitoringStatus

def MonitoredStore.empty : MonitoredStore where
  toStore := Store.empty
  monitoringTargets := ∅
  nodeMonitoringStatuses := ∅

/-- The statement of `resetMonitoringStateTx` that resumes what monitoring has paused. -/
def Store.resumeAutoPaused (db : Store) (now : Time) : Store :=
  { db with
    nodes := db.nodes.update (fun node => node.monitorAutoPaused) (fun node =>
      { node with
        status := if node.status = .draining then .active else node.status
        monitorAutoPaused := false
        updatedAt := now }) }

namespace MonitoredStore

/-! ### Targets -/

/-- `resetMonitoringStateTx`. -/
def resetMonitoringState (db : MonitoredStore) (now : Time) : MonitoredStore :=
  { db with
    toStore := if db.monitoringTargets.any MonitoringTarget.enabled then db.toStore
      else db.toStore.resumeAutoPaused now
    nodeMonitoringStatuses := ∅ }

def createMonitoringTarget (db : MonitoredStore) (id name address : String) (now : Time) :
    Except StoreError MonitoredStore := do
  require (db.monitoringTargets.rows.length < maxMonitoringTargets)
    (.message "monitoring target limit reached")
  require (db.monitoringTargets.any (fun target => target.address = address) = false)
    (.message "monitoring target already exists")
  require (db.monitoringTargets.any (fun target => target.name.toLower = name.toLower) = false)
    (.message "monitoring target name already exists")
  let targets ← orError (db.monitoringTargets.insert? ⟨id, name, address, true, now, now⟩)
    .constraint
  return { db with monitoringTargets := targets }.resetMonitoringState now

def updateTarget (db : MonitoredStore) (targetID name : String) (enabled : Bool) (now : Time) :
    MonitoredStore :=
  { db with
    monitoringTargets := db.monitoringTargets.update (fun target => target.id = targetID)
      (fun target => { target with name := name, enabled := enabled, updatedAt := now }) }

/-- No other target has the name. -/
def targetNameFree (db : MonitoredStore) (targetID name : String) : Bool :=
  !db.monitoringTargets.any fun target =>
    decide (target.name.toLower = name.toLower) && decide (target.id ≠ targetID)

def updateMonitoringTarget (db : MonitoredStore) (targetID : String) (name : Option String)
    (enabled : Option Bool) (now : Time) : Except StoreError MonitoredStore := do
  require (name.isSome = true ∨ enabled.isSome = true)
    (.message "monitoring target update is empty")
  let current ← orError (db.monitoringTargets.find? targetID) .notFound
  require (name.all (db.targetNameFree targetID) = true)
    (.message "monitoring target name already exists")
  let nextName := name.getD current.name
  let nextEnabled := enabled.getD current.enabled
  if nextName = current.name ∧ nextEnabled = current.enabled then return db
  else if nextEnabled = current.enabled then
    return db.updateTarget targetID nextName nextEnabled now
  else return (db.updateTarget targetID nextName nextEnabled now).resetMonitoringState now

def deleteMonitoringTarget (db : MonitoredStore) (targetID : String) (now : Time) :
    Except StoreError MonitoredStore := do
  let _ ← orError (db.monitoringTargets.find? targetID) .notFound
  return { db with
    monitoringTargets := db.monitoringTargets.delete fun target =>
      target.id = targetID }.resetMonitoringState now

/-! ### Rounds -/

def enabledTargetIDs (db : MonitoredStore) : List String :=
  ((db.monitoringTargets.rows.filter MonitoringTarget.enabled).map
    MonitoringTarget.id).insertionSort (· ≤ ·)

/-- The number of abnormal rounds in a row, this one included. -/
def consecutiveAbnormal (db : MonitoredStore) (nodeID : String) (round : MonitoringRound) : Nat :=
  if round.score < monitoringHealthyScore then
    ((db.nodeMonitoringStatuses.find? nodeID).map
      NodeMonitoringStatus.consecutiveAbnormal).getD 0 + 1
  else 0

/-- The round covers the enabled targets. -/
def roundMatches (db : MonitoredStore) (round : MonitoringRound) : Bool :=
  !db.enabledTargetIDs.isEmpty && monitoringResultsMatchTargets round.results db.enabledTargetIDs

/-- The round is newer than the one stored for the node. -/
def roundIsNewer (db : MonitoredStore) (nodeID : String) (round : MonitoringRound) : Bool :=
  (db.nodeMonitoringStatuses.find? nodeID).all fun prior =>
    prior.lastCheckedAt < round.lastCheckedAt

def recordMonitoringRound (db : MonitoredStore) (nodeID : String) (round : MonitoringRound)
    (now : Time) : Except StoreError MonitoredStore := do
  require (db.roundMatches round = true)
    (.message "monitoring targets changed; retry with the latest targets")
  let _ ← db.toStore.getNode nodeID
  require (db.roundIsNewer nodeID round = true)
    (.message "monitoring report is not newer than the stored report")
  let consecutive := db.consecutiveAbnormal nodeID round
  let store ← db.toStore.recordMonitoringRound nodeID consecutive now
  return { db with
    toStore := store
    nodeMonitoringStatuses := db.nodeMonitoringStatuses.upsert
      ⟨nodeID, round.score, consecutive, round.lastCheckedAt, now⟩ }

/-! ### Node operations -/

/-- `SetNodeStatus`, with the count it resets. -/
def setNodeStatus (db : MonitoredStore) (nodeID : String) (status : NodeStatus) (now : Time) :
    Except StoreError MonitoredStore := do
  let store ← db.toStore.setNodeStatus nodeID status now
  return { db with
    toStore := store
    nodeMonitoringStatuses := db.nodeMonitoringStatuses.update
      (fun row => row.nodeID = nodeID)
      (fun row => { row with consecutiveAbnormal := 0, updatedAt := now }) }

/-- A deleted node takes its monitoring row with it. -/
def deleteNode (db : MonitoredStore) (nodeID : String) (now : Time) :
    Except StoreError MonitoredStore := do
  let store ← (NodeOp.deleteNode nodeID).apply db.toStore now
  return { db with
    toStore := store
    nodeMonitoringStatuses := db.nodeMonitoringStatuses.delete fun row => row.nodeID = nodeID }

/-- The node operations, on the database with the monitoring's tables. -/
def applyNodeOp (db : MonitoredStore) (now : Time) : NodeOp → Except StoreError MonitoredStore
  | .setNodeStatus nodeID status => db.setNodeStatus nodeID status now
  | .deleteNode nodeID => db.deleteNode nodeID now
  | op => do
    let store ← op.apply db.toStore now
    return { db with toStore := store }

end MonitoredStore

/-- What an administrator does to the monitoring targets. -/
inductive TargetOp
  | create (id name address : String)
  | update (targetID : String) (name : Option String) (enabled : Option Bool)
  | delete (targetID : String)

def TargetOp.apply (db : MonitoredStore) (now : Time) :
    TargetOp → Except StoreError MonitoredStore
  | .create id name address => db.createMonitoringTarget id name address now
  | .update targetID name enabled => db.updateMonitoringTarget targetID name enabled now
  | .delete targetID => db.deleteMonitoringTarget targetID now

end SimpleCdn
