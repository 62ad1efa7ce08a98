import SimpleCdn.Lib.Transition
import SimpleCdn.Store.Monitoring

/-!
# What monitoring does to a node

The count of abnormal rounds, the mark of a pause made by monitoring and the status of the node are
in different tables, and rounds, changes of the targets and administrators write them.

`history` lists what has happened, the newest first; no step decides by it.
-/

namespace SimpleCdn.Probing

open Transition

/-- A round is abnormal. -/
def abnormal (round : MonitoringRound) : Bool :=
  round.score < monitoringHealthyScore

inductive Event
  /-- A round of the node was accepted; `pauses` says that it has paused the node. -/
  | round (nodeID : String) (abnormal : Bool) (checkedAt : Time) (pauses : Bool)
  | targetsChanged
  /-- An administrator has set the node's status. -/
  | statusSet (nodeID : String)
  deriving DecidableEq

/-- The abnormal rounds of the node in a row, since the last reset. -/
def streak (nodeID : String) : List Event → Nat
  | [] => 0
  | .round n abnormal _ _ :: rest =>
    if n = nodeID then if abnormal then streak nodeID rest + 1 else 0 else streak nodeID rest
  | .targetsChanged :: _ => 0
  | .statusSet n :: rest => if n = nodeID then 0 else streak nodeID rest

/-- The time of the last round of the node that was accepted. -/
def lastAccepted (nodeID : String) : List Event → Option Time
  | [] => none
  | .round n _ checkedAt _ :: rest =>
    if n = nodeID then some checkedAt else lastAccepted nodeID rest
  | .targetsChanged :: rest | .statusSet _ :: rest => lastAccepted nodeID rest

/-- The time of the last round of the node that was accepted with these targets. -/
def lastAcceptedSince (nodeID : String) : List Event → Option Time
  | [] | .targetsChanged :: _ => none
  | .round n _ checkedAt _ :: rest =>
    if n = nodeID then some checkedAt else lastAcceptedSince nodeID rest
  | .statusSet _ :: rest => lastAcceptedSince nodeID rest

/-- The last of the administrator's settings and monitoring's pauses of the node is a pause. -/
def pausedByMonitoring (nodeID : String) : List Event → Bool
  | [] => false
  | .round n _ _ pauses :: rest => (n = nodeID && pauses) || pausedByMonitoring nodeID rest
  | .targetsChanged :: rest => pausedByMonitoring nodeID rest
  | .statusSet n :: rest => n ≠ nodeID && pausedByMonitoring nodeID rest

/-! ### The system -/

structure State where
  db : MonitoredStore
  history : List Event

inductive Action
  | round (nodeID : String) (round : MonitoringRound) (now : Time)
  | target (op : TargetOp) (now : Time)
  | setStatus (nodeID : String) (status : NodeStatus) (now : Time)
  | create (id name publicIPv4 : String) (now : Time)
  | heartbeat (nodeID : String) (appliedVersion : Nat) (lastError : String)
      (report : Option ApplyReport) (agentVersion agentSHA256 activeUpgradeID : String)
      (now : Time)

def initial : State where
  db := MonitoredStore.empty
  history := []

def isActive (db : MonitoredStore) (nodeID : String) : Bool :=
  (db.nodes.find? nodeID).any fun node => node.status = .active

/-- The operation starts the monitoring over: it changes the set of targets that are probed. -/
def changesTargets (db : MonitoredStore) : TargetOp → Bool
  | .create .. | .delete _ => true
  | .update targetID _ enabled =>
    (db.monitoringTargets.find? targetID).any fun current =>
      enabled.getD current.enabled ≠ current.enabled

def State.onDatabase (s : State) (result : Except StoreError MonitoredStore)
    (events : MonitoredStore → List Event) : State :=
  match result with
  | .ok db => ⟨db, events db ++ s.history⟩
  | .error _ => s

def step (s : State) : Action → State
  | .round nodeID round now =>
    s.onDatabase (s.db.recordMonitoringRound nodeID round now) fun db =>
      [.round nodeID (abnormal round) round.lastCheckedAt
        (isActive s.db nodeID && !isActive db nodeID)]
  | .target op now =>
    s.onDatabase (op.apply s.db now) fun _ =>
      if changesTargets s.db op then [.targetsChanged] else []
  | .setStatus nodeID status now =>
    s.onDatabase (s.db.applyNodeOp now (.setNodeStatus nodeID status)) fun _ =>
      [.statusSet nodeID]
  | .create id name publicIPv4 now =>
    s.onDatabase (s.db.applyNodeOp now (.createNode id name publicIPv4)) fun _ => []
  | .heartbeat nodeID appliedVersion lastError report agentVersion agentSHA256 activeUpgradeID now =>
    s.onDatabase (s.db.applyNodeOp now (.heartbeat nodeID appliedVersion lastError report
      agentVersion agentSHA256 activeUpgradeID)) fun _ => []

/-! ### The law -/

/-- The round is accepted. -/
def State.accepts (s : State) (nodeID : String) (round : MonitoringRound) (now : Time) : Prop :=
  (s.db.recordMonitoringRound nodeID round now).isOk = true

/-- What a round may do; `last` is the time a round has to be newer than. -/
structure RoundLaw (last : String → List Event → Option Time) (s s' : State) (nodeID : String)
    (round : MonitoringRound) (now : Time) : Prop where
  /-- It pauses an active node exactly if it and the three before it are abnormal. -/
  pauses : s.accepts nodeID round now → isActive s.db nodeID = true →
    (isActive s'.db nodeID = false ↔ abnormal round = true ∧ 3 ≤ streak nodeID s.history)
  stale : ∀ t, last nodeID s.history = some t → round.lastCheckedAt ≤ t → s' = s
  paused : ∀ n, isActive s.db n = true → isActive s'.db n = false →
    n = nodeID ∧ s.accepts nodeID round now
  resumed : ∀ n, isActive s.db n = false → isActive s'.db n = true →
    n = nodeID ∧ s.accepts nodeID round now ∧ abnormal round = false ∧
      pausedByMonitoring n s.history = true

/-- What an operation on the targets may do. -/
structure TargetLaw (s s' : State) : Prop where
  paused : ∀ n, isActive s.db n = true → isActive s'.db n = true
  /-- It resumes nodes when the last enabled target goes away. -/
  resumed : ∀ n, isActive s.db n = false → isActive s'.db n = true →
    s.db.enabledTargetIDs ≠ [] ∧ s'.db.enabledTargetIDs = [] ∧
      pausedByMonitoring n s.history = true

/-- Monitoring pauses and resumes as it should. -/
def Lawful (last : String → List Event → Option Time) (s : State) : Action → Prop
  | .round nodeID round now => RoundLaw last s (step s (.round nodeID round now)) nodeID round now
  | .target op now => TargetLaw s (step s (.target op now))
  | _ => True

end SimpleCdn.Probing
