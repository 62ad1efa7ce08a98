import SimpleCdn.Control.Notifying
import SimpleCdn.Lib.Transition
import SimpleCdn.Store.Monitoring

/-!
# Announcing what monitoring pauses

A report of a monitoring round may pause or resume its node, and the request that brought it then
sends a message: about a pause, unless the incident of the node is active already, or about a
resumption, which ends the incident.  Requests run side by side, so other reports and administrators
come between the round and its message.

`activeSince` lists the nodes that have been active since their delivery state was last set; no step
decides by it.
-/

namespace SimpleCdn.Alerting.Pauses

open Transition NotificationStore Store

/-! ### Reports -/

/-- `MonitoringRoundOutcome`. -/
structure MonitoringRoundOutcome where
  nodeStatus : NodeStatus
  statusChanged : Bool
  autoPaused : Bool
  consecutiveAbnormal : Nat

/-- What `RecordMonitoringRound` says about the node as it was. -/
def roundOutcome (db : MonitoredStore) (node : Node) (round : MonitoringRound) :
    MonitoringRoundOutcome :=
  let consecutive := db.consecutiveAbnormal node.id round
  let (status, autoPaused) := monitoredStatus node.status node.monitorAutoPaused consecutive
  ⟨status, status ≠ node.status, autoPaused, consecutive⟩

/-- `edgeMonitoringReport` sends a message: monitoring has changed the status, or keeps it paused. -/
def MonitoringRoundOutcome.notifies (outcome : MonitoringRoundOutcome) : Bool :=
  outcome.statusChanged ||
    (outcome.autoPaused && monitoringAutoPauseAfter ≤ outcome.consecutiveAbnormal)

/-- `monitoringNotificationCooldown`. -/
def monitoringNotificationCooldown : Time := 300 * second

def monitoringKey (nodeID : String) : String := "monitoring:node:" ++ nodeID

/-- The message about a pause or a resumption. -/
def monitoringNotification (nodeID : String) (resumed : Bool) (details : List NotificationDetail)
    (now : Time) : Notification where
  category := .monitoring
  severity := if resumed then .success else .error
  subject := if resumed then "[CDN] 节点拨测恢复，已恢复流量" else "[CDN] 节点拨测异常，已暂停流量"
  message := if resumed then "节点拨测已恢复健康，控制面已解除自动暂停并恢复流量调度。"
    else "节点连续多轮拨测低于健康阈值，控制面已自动暂停该节点，避免继续调度流量。"
  details := details
  occurredAt := now
  key := monitoringKey nodeID
  cooldown := monitoringNotificationCooldown
  suppressUntilResolved := !resumed
  resolved := resumed
  notifyOnResolve := resumed

/-! ### The system -/

/-- A request that has recorded a round and is about to send its message. -/
structure PendingNotification where
  nodeID : String
  /-- The node is not paused after the round. -/
  resumed : Bool
  deriving DecidableEq

structure State where
  db : MonitoredStore
  notifications : NotificationStore
  pending : List PendingNotification
  activeSince : List String

inductive Action
  | report (nodeID : String) (round : MonitoringRound) (now : Time)
  /-- The request `i` sends its message. -/
  | notify (i : Nat) (profile : SMTPProfile) (details : List NotificationDetail)
      (failures : NotifyFailures) (now : Time)
  /-- The request `i` cannot load its node or the targets, and sends nothing. -/
  | abandon (i : Nat)
  | node (op : NodeOp) (now : Time)
  | target (op : TargetOp) (now : Time)
  | restart

def initial : State where
  db := MonitoredStore.empty
  notifications := NotificationStore.empty
  pending := []
  activeSince := []

def activeNodes (db : MonitoredStore) : List String :=
  (db.nodes.rows.filter fun node => node.status = .active).map Node.id

/-- A round is recorded by a report only. -/
def isMonitoringRound : NodeOp → Bool
  | .recordMonitoringRound .. => true
  | _ => false

def State.report (s : State) (nodeID : String) (round : MonitoringRound) (now : Time) : State :=
  match s.db.nodes.find? nodeID, s.db.recordMonitoringRound nodeID round now with
  | some node, .ok db =>
    let outcome := roundOutcome s.db node round
    { s with
      db := db
      pending := if outcome.notifies then
        s.pending ++ [⟨nodeID, outcome.nodeStatus ≠ .draining⟩] else s.pending }
  | _, _ => s

/-- The call of `NotifyNotification`. -/
def State.handle (s : State) (call : PendingNotification) (profile : SMTPProfile)
    (details : List NotificationDetail) (failures : NotifyFailures) (now : Time) :
    Handling × NotificationStore :=
  s.notifications.notifyNotification profile false
    (monitoringNotification call.nodeID call.resumed details now) failures now

def State.notify (s : State) (i : Nat) (call : PendingNotification) (profile : SMTPProfile)
    (details : List NotificationDetail) (failures : NotifyFailures) (now : Time) : State :=
  let handled := s.handle call profile details failures now
  { s with
    notifications := handled.2
    pending := s.pending.eraseIdx i
    activeSince := if !call.resumed && handled.1 = .delivered then
      s.activeSince.filter fun nodeID => nodeID ≠ call.nodeID else s.activeSince }

def State.onDatabase (s : State) (result : Except StoreError MonitoredStore) : State :=
  match result with
  | .ok db => { s with db := db }
  | .error _ => s

def State.act (s : State) : Action → State
  | .report nodeID round now => s.report nodeID round now
  | .notify i profile details failures now =>
    match s.pending[i]? with
    | some call => s.notify i call profile details failures now
    | none => s
  | .abandon i => { s with pending := s.pending.eraseIdx i }
  | .node op now => if isMonitoringRound op then s else s.onDatabase (s.db.applyNodeOp now op)
  | .target op now => s.onDatabase (op.apply s.db now)
  | .restart => { s with pending := [] }

def step (s : State) (a : Action) : State :=
  let s' := s.act a
  { s' with activeSince := s'.activeSince ++ activeNodes s'.db }

/-! ### The law -/

/-- An alert that is held back because the incident is active belongs to the pause that the
incident was written down for: the node has not been active since. -/
def Justified (s : State) : Action → Prop
  | .notify i profile details failures now => ∀ call ∈ s.pending[i]?,
      call.resumed = false → (s.handle call profile details failures now).1 = .suppressed →
        call.nodeID ∉ s.activeSince
  | _ => True

/-- The incident of the node is active. -/
def State.incident (s : State) (nodeID : String) : Bool :=
  s.notifications.incidentActive (monitoringKey nodeID)

def State.isActive (s : State) (nodeID : String) : Prop :=
  nodeID ∈ activeNodes s.db

/-- The message about a resumption is not sent yet. -/
def State.resumes (s : State) (nodeID : String) : Prop :=
  ∃ call ∈ s.pending, call.nodeID = nodeID ∧ call.resumed = true

/-- The calls that a message about a resumption makes, with this profile, succeed. -/
def Succeeds (profile : SMTPProfile) (failures : NotifyFailures) : Prop :=
  failures.read = false ∧ failures.write = false ∧
    (notifies profile .monitoring = true → failures.deliver = false)

/-- A request that is to end an active incident does so, and a pause is announced while the node is
not active and no such request is left. -/
def OrderlyCall (s : State) (call : PendingNotification) (profile : SMTPProfile)
    (failures : NotifyFailures) : Prop :=
  if call.resumed then s.incident call.nodeID = true → Succeeds profile failures
  else ¬ s.isActive call.nodeID ∧ (s.incident call.nodeID = true → ¬ s.resumes call.nodeID)

/-- Incidents end with the resumption they wait for: a node becomes active during its incident only
by a healthy round, whose message is sent, and its calls succeed, before the next pause is
announced. -/
def Orderly (s : State) : Action → Prop
  | .report _ _ _ => True
  | .notify i profile _ failures _ => ∀ call ∈ s.pending[i]?, OrderlyCall s call profile failures
  | .abandon i => ∀ call ∈ s.pending[i]?, call.resumed = true → s.incident call.nodeID = false
  | .node op now => ∀ n ∈ activeNodes (step s (.node op now)).db,
      s.incident n = true → s.isActive n
  | .target op now => ∀ n ∈ activeNodes (step s (.target op now)).db,
      s.incident n = true → s.isActive n
  | .restart => ∀ call ∈ s.pending, call.resumed = true → s.incident call.nodeID = false

end SimpleCdn.Alerting.Pauses
