import SimpleCdn.Upgrading.Earning

/-!
# The evidence of an upgrade

The control plane of `Lifecycle`, where digests come as they are sent: an upgrade is started with
the digest of the edge binary the server has, and the digests of heartbeats and reports are
normalised before a statement sees them.  `received` lists the digests that have come in; no step
reads it.  `FailActiveNodeUpgrade` may be called at any time.

The instants of the operations are arbitrary.  The newest task of a node is the one with the
greatest `created_at`.
-/

namespace SimpleCdn

open Store

/-- `strings.ToLower(strings.TrimSpace(digest))` -/
def normalizeDigest (digest : String) : String :=
  (Text.trimSpace digest).toLower

/-- `strings.EqualFold`, of two digests. -/
def equalFold (a b : String) : Bool :=
  a.toLower = b.toLower

def isHexDigit (c : Char) : Bool :=
  c.isDigit || ('a' ≤ c && c ≤ 'f') || ('A' ≤ c && c ≤ 'F')

def validSHA256Digest (value : String) : Bool :=
  Text.byteLength value = 64 && value.toList.all isHexDigit

/-- The handler `edgeUpgradeReport`, what it does to a report before it records it. -/
def NodeUpgradeReport.normalized (report : NodeUpgradeReport) : NodeUpgradeReport :=
  { report with
    taskID := Text.trimSpace report.taskID
    errorCode := Text.trimSpace report.errorCode
    detail := Text.trimSpace report.detail
    installedSHA256 := normalizeDigest report.installedSHA256 }

/-- Its check of the digest, which may be missing. -/
def validDigest (digest : String) : Bool :=
  digest = "" || validSHA256Digest digest

namespace Upgrading.Evidence

open Transition

/-- A digest that a node has sent, with a heartbeat or with a report that its task succeeded. -/
structure Receipt where
  nodeID : String
  /-- The task of the report. -/
  taskID : Option String
  digest : String
  deriving DecidableEq

structure State where
  control : Lifecycle.State
  received : List Receipt

inductive Action
  | control (a : Lifecycle.Action)
  | startUpgrade (nodeID id edgeBinarySHA256 : String) (deadline now : Time)
  | heartbeat (fingerprint : String) (capabilities : List String) (appliedVersion : Nat)
      (lastError : String) (report : Option ApplyReport)
      (agentVersion agentSHA256 activeUpgradeID : String)
  | upgradeReport (fingerprint : String) (report : NodeUpgradeReport)
  | failActiveNodeUpgrade (nodeID code detail : String) (now : Time)

def initial : State where
  control := Lifecycle.initial
  received := []

/-- Digests come with the actions of this system. -/
def bringsDigest : Lifecycle.Action → Bool
  | .startUpgrade .. => true
  | a => byAgent a

/-- The digest that a report of success brings. -/
def receiptOf (nodeID : String) (report : NodeUpgradeReport) : List Receipt :=
  match report.status with
  | .succeeded => [⟨nodeID, some (Text.trimSpace report.taskID), report.installedSHA256⟩]
  | _ => []

/-- A request is admitted, and its digest has been received. -/
def State.admitted (s : State) (nodeID : String) (call : Lifecycle.EdgeCall)
    (receipts : List Receipt) : State where
  control := s.control.enqueue nodeID call.statements
  received := receipts ++ s.received

def State.withStore (s : State) (store : Store) : State :=
  { s with control := { s.control with db := { s.control.db with toStore := store } } }

def step (s : State) : Action → State
  | .control a => if bringsDigest a then s else { s with control := Lifecycle.step s.control a }
  | .startUpgrade nodeID id edgeBinarySHA256 deadline now =>
    if validSHA256Digest (Text.trimSpace edgeBinarySHA256) then
      { s with
        control := Lifecycle.step s.control
          (.startUpgrade nodeID id (normalizeDigest edgeBinarySHA256) deadline now) }
    else s
  | .heartbeat fingerprint capabilities appliedVersion lastError report agentVersion agentSHA256
      activeUpgradeID =>
    match s.control.db.toStore.nodeIDByFingerprint fingerprint with
    | .ok nodeID =>
      if validDigest (normalizeDigest agentSHA256) then
        s.admitted nodeID (.heartbeat capabilities appliedVersion lastError report
          (Text.trimSpace agentVersion) (normalizeDigest agentSHA256)
          (Text.trimSpace activeUpgradeID)) [⟨nodeID, none, agentSHA256⟩]
      else s
    | .error _ => s
  | .upgradeReport fingerprint report =>
    match s.control.db.toStore.nodeIDByFingerprint fingerprint with
    | .ok nodeID =>
      if report.normalized.valid && validDigest report.normalized.installedSHA256 then
        s.admitted nodeID (.upgradeReport report.normalized) (receiptOf nodeID report)
      else s
    | .error _ => s
  | .failActiveNodeUpgrade nodeID code detail now =>
    s.withStore (s.control.db.toStore.failActiveNodeUpgrade nodeID code detail now)

def State.tasks (s : State) : Table NodeUpgradeTask :=
  s.control.db.nodeUpgradeTasks

/-- The digest is the one the task is to install, and the node has sent it with a heartbeat or
with a report on this task. -/
def Receipt.supports (receipt : Receipt) (task : NodeUpgradeTask) : Prop :=
  receipt.nodeID = task.nodeID ∧ (∀ id, receipt.taskID = some id → id = task.id) ∧
    equalFold (Text.trimSpace receipt.digest) task.targetSHA256 = true

/-! ### What a step earns -/

section

variable {s : State} {nodeID : String} {now : Time} {D : String → String → Prop}

/-- The tasks that a statement of a request may complete, and the digest it may bring. -/
def completes (db : Store) (nodeID : String) : Lifecycle.Statement → NodeUpgradeTask → Prop
  | .reconcileNodeUpgrades => db.runsTarget
  | .recordNodeUpgradeReport report => db.reportCompletes nodeID report
  | _ => fun _ => False

def brings (nodeID : String) : Lifecycle.Statement → String → String → Prop
  | .updateNode _ _ _ agentSHA256 _ => fun n digest => n = nodeID ∧ digest = agentSHA256
  | _ => fun _ _ => False

theorem statement_earns {db db' : MonitoredStore} {statement : Lifecycle.Statement}
    (h : statement.execute db nodeID now = .ok db') :
    Earns (completes db.toStore nodeID statement) (brings nodeID statement) db.toStore
      db'.toStore := by
  cases statement with
  | setNodeCapabilities capabilities =>
    obtain ⟨store, hset, rfl⟩ := Lifecycle.onStore_eq_ok.mp h
    simp only [setNodeCapabilities, bind_eq_ok, pure_eq_ok] at hset
    obtain ⟨-, -, rfl⟩ := hset
    exact .of_settings (by intro _; rfl) rfl rfl rfl fun _ => rfl
  | recordReport report =>
    obtain ⟨store, hrecord, rfl⟩ := Lifecycle.onStore_eq_ok.mp h
    cases report with
    | none =>
      obtain rfl := Except.ok.inj hrecord
      exact .refl _
    | some report =>
      simp only [recordReport, recordPublishApply, bind_eq_ok, pure_eq_ok] at hrecord
      obtain ⟨-, -, rfl⟩ := hrecord
      exact .of_eq rfl rfl rfl
  | updateNode appliedVersion lastError agentVersion agentSHA256 activeUpgradeID =>
    obtain ⟨store, hbeat, rfl⟩ := Lifecycle.onStore_eq_ok.mp h
    simp only [Lifecycle.heartbeatNode, bind_eq_ok, getNode_eq_ok, pure_eq_ok] at hbeat
    obtain ⟨node, hnode, rfl⟩ := hbeat
    refine ⟨tasks_kept _ rfl, fun node' hnode' => ?_, List.Subset.refl _⟩
    obtain ⟨row, hrow, rfl⟩ := List.mem_map.mp hnode'
    split
    · next hselected =>
      by_cases hempty : agentSHA256 = ""
      · exact .inr (.inr ⟨row, hrow, rfl, (if_pos hempty).symm⟩)
      · exact .inr (.inl ⟨of_decide_eq_true hselected, if_neg hempty⟩)
    · exact .inr (.inr ⟨row, hrow, rfl, rfl⟩)
  | reconcileNodeUpgrades =>
    obtain ⟨store, hstore, rfl⟩ := Lifecycle.onStore_eq_ok.mp h
    obtain rfl := Except.ok.inj hstore
    exact reconcileNodeUpgrades_earns db.toStore now
  | reconcilePublishTasks =>
    obtain ⟨store, hstore, rfl⟩ := Lifecycle.onStore_eq_ok.mp h
    obtain rfl := Except.ok.inj hstore
    obtain ⟨tasks, rows, hframe⟩ := db.toStore.reconcilePublishTasks_frame now
    rw [hframe]
    exact .of_eq rfl rfl rfl
  | setNodeCertificate fingerprint =>
    obtain ⟨store, hset, rfl⟩ := Lifecycle.onStore_eq_ok.mp h
    simp only [setNodeCertificate, bind_eq_ok, pure_eq_ok] at hset
    obtain ⟨-, -, -, -, rfl⟩ := hset
    exact .of_settings (by intro _; rfl) rfl rfl rfl fun _ => rfl
  | recordMonitoringRound round =>
    simp only [Lifecycle.Statement.execute, MonitoredStore.recordMonitoringRound,
      Store.recordMonitoringRound, bind_eq_ok, pure_eq_ok] at h
    obtain ⟨-, -, -, -, -, -, store, ⟨-, -, rfl⟩, rfl⟩ := h
    exact .of_settings (by intro _; rfl) rfl rfl rfl fun _ => rfl
  | recordNodeUpgradeReport report =>
    obtain ⟨store, hrecord, rfl⟩ := Lifecycle.onStore_eq_ok.mp h
    exact recordNodeUpgradeReport_earns hrecord

/-- A task is created while the node has no active one. -/
theorem createOrGetNodeUpgrade_creates {db db' : Store} {taskID targetSHA256 : String}
    {deadline : Time}
    (h : db.createOrGetNodeUpgrade nodeID taskID targetSHA256 deadline now = .ok db') :
    db' = db ∨ db.activeNodeUpgrade nodeID = none ∧ db'.nodes = db.nodes ∧
      taskID ∉ db.issuedIDs ∧ db'.issuedIDs = taskID :: db.issuedIDs ∧ targetSHA256 ≠ "" ∧
      ∃ new : NodeUpgradeTask, new.nodeID = nodeID ∧ new.id = taskID ∧ new.status = .queued ∧
        new.targetSHA256 = targetSHA256 ∧
        ∀ task, task ∈ db'.nodeUpgradeTasks ↔ task ∈ db.nodeUpgradeTasks ∨ task = new := by
  simp only [createOrGetNodeUpgrade, bind_eq_ok, require_eq_ok, exists_const] at h
  obtain ⟨⟨-, htarget, -⟩, h⟩ := h
  have hnonempty : targetSHA256 ≠ "" := by
    rintro rfl
    exact htarget rfl
  split at h
  · exact .inl (pure_eq_ok.mp h).symm
  · next hnone =>
    simp only [createNodeUpgrade, bind_eq_ok, require_eq_ok, getNode_eq_ok, orError_eq_ok,
      pure_eq_ok, exists_const] at h
    obtain ⟨node, -, -, -, -, db₁, hnew, tasks, hinsert, rfl⟩ := h
    obtain ⟨hfresh, rfl⟩ := newID_eq_ok.mp hnew
    exact .inr ⟨hnone, rfl, hfresh, rfl, hnonempty, _, rfl, rfl, rfl, rfl,
      fun task => Table.mem_of_insert? hinsert⟩

/-- What the statement of a request, or anything else, may complete and bring. -/
def actionCompletes (s : Lifecycle.State) : Lifecycle.Action → NodeUpgradeTask → Prop
  | .reconcileNodeUpgrades _ => s.db.toStore.runsTarget
  | .statement i _ =>
    match s.next i with
    | some (request, statement, _) => completes s.db.toStore request.nodeID statement
    | none => fun _ => False
  | _ => fun _ => False

def actionBrings (s : Lifecycle.State) : Lifecycle.Action → String → String → Prop
  | .statement i _ =>
    match s.next i with
    | some (request, statement, _) => brings request.nodeID statement
    | none => fun _ _ => False
  | _ => fun _ _ => False

theorem control_earns (s : Lifecycle.State) {a : Lifecycle.Action} (ha : bringsDigest a = false) :
    Earns (actionCompletes s a) (actionBrings s a) s.db.toStore
      (Lifecycle.step s a).db.toStore := by
  cases a with
  | node op now =>
    simp only [Lifecycle.step]
    split
    · exact .refl _
    · next hguard =>
      rw [Bool.or_eq_true, not_or] at hguard
      unfold Lifecycle.State.nodeOp
      cases happly : s.db.applyNodeOp now op with
      | error e => exact .refl _
      | ok db =>
        exact nodeOp_earns (Bool.eq_false_iff.mpr hguard.1) (Lifecycle.applyNodeOp_store happly)
  | monitoringTarget op now =>
    simp only [Lifecycle.step, Lifecycle.State.onDatabase]
    cases happly : op.apply s.db now with
    | error e => exact .refl _
    | ok db =>
      obtain ⟨hresumed, hsame⟩ := Lifecycle.targetOp_store happly
      by_cases hclears : Lifecycle.clearsTargets s.db op
      · rw [hresumed hclears]
        exact .of_settings (by intro _; rfl) rfl rfl rfl fun _ => rfl
      · rw [hsame hclears]
        exact .refl _
  | startUpgrade nodeID id targetSHA256 deadline now => cases ha
  | reconcileNodeUpgrades now => exact reconcileNodeUpgrades_earns s.db.toStore now
  | enroll token fingerprint now =>
    simp only [Lifecycle.step]
    split
    · next nodeID store hconsume =>
      simp only [consumeEnrollmentToken, bind_eq_ok, require_eq_ok, pure_eq_ok, exists_const,
        Prod.mk.injEq] at hconsume
      obtain ⟨-, -, -, -, -, -, rfl⟩ := hconsume
      exact .of_eq rfl rfl rfl
    · exact .refl _
  | request fingerprint call =>
    simp only [Lifecycle.step]
    split
    · exact .refl _
    · exact .refl _
  | statement i now =>
    simp only [Lifecycle.step, actionCompletes, actionBrings]
    cases hnext : s.next i with
    | none => exact .refl _
    | some entry =>
      obtain ⟨request, statement, rest⟩ := entry
      dsimp only
      split
      · exact .refl _
      · unfold Lifecycle.State.execute
        cases hexecute : statement.execute s.db request.nodeID now with
        | error e => exact .refl _
        | ok db => exact statement_earns hexecute

/-! ### The invariant -/

/-- The node has sent the digest with a heartbeat. -/
def Heard (received : List Receipt) (n digest : String) : Prop :=
  ∃ receipt ∈ received, receipt.nodeID = n ∧ receipt.taskID = none ∧
    normalizeDigest receipt.digest = digest

/-- What a statement that waits brings has been received. -/
def Backed (received : List Receipt) (n : String) : Lifecycle.Statement → Prop
  | .updateNode _ _ _ agentSHA256 _ => Heard received n agentSHA256
  | .recordNodeUpgradeReport report => report.status = .succeeded →
      ∃ receipt ∈ received, receipt.nodeID = n ∧ receipt.taskID = some report.taskID ∧
        normalizeDigest receipt.digest = report.installedSHA256
  | _ => True

structure Evidenced (s : State) : Prop where
  succeeded : ∀ task ∈ s.tasks, task.status = .succeeded →
    ∃ receipt ∈ s.received, receipt.supports task
  targets : ∀ task ∈ s.tasks, task.targetSHA256 ≠ ""
  digests : ∀ node ∈ s.control.db.nodes, node.agentSHA256 = "" ∨
    Heard s.received node.id node.agentSHA256
  requests : ∀ request ∈ s.control.requests, ∀ statement ∈ request.statements,
    Backed s.received request.nodeID statement
  issued : ∀ task ∈ s.tasks, task.id ∈ s.control.db.issuedIDs
  single : ∀ task ∈ s.tasks, ∀ other ∈ s.tasks, task.status.active = true →
    other.status.active = true → other.nodeID = task.nodeID → other.id = task.id

theorem supports_of_normalize {receipt : Receipt} {task : NodeUpgradeTask}
    (hn : receipt.nodeID = task.nodeID) (htask : ∀ id, receipt.taskID = some id → id = task.id)
    (hdigest : normalizeDigest receipt.digest = task.targetSHA256) : receipt.supports task := by
  refine ⟨hn, htask, decide_eq_true ?_⟩
  rw [← hdigest, normalizeDigest, Text.toLower_toLower]

/-- A receipt for a task is one for the same task later. -/
theorem Receipt.supports.kept {receipt : Receipt} {task task' : NodeUpgradeTask}
    (h : receipt.supports task) (hkept : UpgradeKept task task') : receipt.supports task' := by
  obtain ⟨hn, htask, hdigest⟩ := h
  refine ⟨hn.trans hkept.nodeID.symm, fun id hid => (htask id hid).trans hkept.id.symm, ?_⟩
  rw [hkept.target]
  exact hdigest

/-- The node of a task has sent its artifact's digest with a heartbeat. -/
theorem Evidenced.runsTarget {s : State} (hs : Evidenced s) {task : NodeUpgradeTask}
    (htask : task ∈ s.tasks) (h : s.control.db.toStore.runsTarget task) :
    ∃ receipt ∈ s.received, receipt.supports task := by
  obtain ⟨node, hnode, hid, hdigest⟩ := h
  rcases hs.digests node hnode with hempty | ⟨receipt, hreceipt, hn, hbeat, hsent⟩
  · exact absurd (hdigest.symm.trans hempty) (hs.targets task htask)
  · refine ⟨receipt, hreceipt, supports_of_normalize (hn.trans hid) ?_ (hsent.trans hdigest)⟩
    intro id hsome
    rw [hbeat] at hsome
    cases hsome

/-- Whatever a statement may complete has been sent. -/
theorem Evidenced.completes {s : State} (hs : Evidenced s) {statement : Lifecycle.Statement}
    (hbacked : Backed s.received nodeID statement) {task : NodeUpgradeTask}
    (htask : task ∈ s.tasks)
    (h : Evidence.completes s.control.db.toStore nodeID statement task) :
    ∃ receipt ∈ s.received, receipt.supports task := by
  cases statement with
  | reconcileNodeUpgrades => exact hs.runsTarget htask h
  | recordNodeUpgradeReport report =>
    obtain ⟨hn, hid, ⟨hstatus, hdigest⟩ | hempty | hruns⟩ := h
    · obtain ⟨receipt, hreceipt, hreceiptNode, hreceiptTask, hsent⟩ := hbacked hstatus
      refine ⟨receipt, hreceipt, supports_of_normalize (hreceiptNode.trans hn.symm) ?_
        (hsent.trans hdigest)⟩
      intro id hsome
      rw [hreceiptTask] at hsome
      exact (Option.some.inj hsome).symm.trans hid.symm
    · exact absurd hempty (hs.targets task htask)
    · exact hs.runsTarget htask hruns
  | setNodeCapabilities | recordReport | updateNode | reconcilePublishTasks | setNodeCertificate
    | recordMonitoringRound => cases h

/-- Operations keep the invariant, as far as the tables go. -/
theorem Evidenced.of_earns {s s' : State} (hs : Evidenced s) {P : NodeUpgradeTask → Prop}
    (h : Earns P D s.control.db.toStore s'.control.db.toStore)
    (hreceived : s'.received = s.received)
    (hP : ∀ task ∈ s.tasks, P task → ∃ receipt ∈ s.received, receipt.supports task)
    (hD : ∀ n digest, D n digest → Heard s.received n digest)
    (hrequests : ∀ request ∈ s'.control.requests, ∀ statement ∈ request.statements,
      Backed s.received request.nodeID statement) : Evidenced s' where
  succeeded := by
    intro task' htask' hsucceeded
    obtain ⟨task, htask, hearns⟩ := h.tasks task' htask'
    rw [hreceived]
    have hbefore : ∃ receipt ∈ s.received, receipt.supports task := by
      rcases hearns.earned hsucceeded with hold | hnew
      · exact hs.succeeded task htask hold
      · exact hP task htask hnew
    obtain ⟨receipt, hreceipt, hsupports⟩ := hbefore
    exact ⟨receipt, hreceipt, hsupports.kept hearns.kept⟩
  targets := by
    intro task' htask'
    obtain ⟨task, htask, hearns⟩ := h.tasks task' htask'
    rw [hearns.kept.target]
    exact hs.targets task htask
  digests := by
    intro node' hnode'
    rw [hreceived]
    rcases h.nodes node' hnode' with hempty | hbrought | ⟨node, hnode, hid, hdigest⟩
    · exact .inl hempty
    · exact .inr (hD _ _ hbrought)
    · rw [← hid, ← hdigest]
      exact hs.digests node hnode
  requests := by rw [hreceived]; exact hrequests
  issued := by
    intro task' htask'
    obtain ⟨task, htask, hearns⟩ := h.tasks task' htask'
    rw [hearns.kept.id]
    exact h.issued (hs.issued task htask)
  single := by
    intro task' htask' other' hother' hactive hotherActive hn
    obtain ⟨task, htask, hearns⟩ := h.tasks task' htask'
    obtain ⟨other, hother, hotherEarns⟩ := h.tasks other' hother'
    rw [hearns.kept.id, hotherEarns.kept.id]
    refine hs.single task htask other hother (hearns.kept.active hactive)
      (hotherEarns.kept.active hotherActive) ?_
    rw [← hearns.kept.nodeID, ← hotherEarns.kept.nodeID]
    exact hn

/-- Creating a task keeps the invariant. -/
theorem Evidenced.create {s : State} (hs : Evidenced s) {id targetSHA256 : String}
    {deadline : Time} {store : Store}
    (h : s.control.db.toStore.createOrGetNodeUpgrade nodeID id targetSHA256 deadline now =
      .ok store) : Evidenced (s.withStore store) := by
  rcases createOrGetNodeUpgrade_creates h with rfl |
    ⟨hnone, hnodes, hfresh, hissued, htarget, new, hn, hid, hqueued, hnewTarget, hmem⟩
  · exact hs
  · have hinactive : ∀ task ∈ s.tasks, task.nodeID = nodeID → task.status.active = false := by
      intro task htask htaskNode
      have hempty := List.filter_eq_nil_iff.mp (List.argmax_eq_none.mp hnone) task htask
      simpa [htaskNode] using hempty
    constructor
    case succeeded =>
      intro task htask hsucceeded
      rcases (hmem task).mp htask with hbefore | rfl
      · exact hs.succeeded task hbefore hsucceeded
      · rw [hqueued] at hsucceeded
        cases hsucceeded
    case targets =>
      intro task htask
      rcases (hmem task).mp htask with hbefore | rfl
      · exact hs.targets task hbefore
      · rw [hnewTarget]
        exact htarget
    case digests =>
      intro node hnode
      have hbefore : node ∈ s.control.db.nodes := by
        rw [← hnodes]
        exact hnode
      exact hs.digests node hbefore
    case requests => exact hs.requests
    case issued =>
      intro task htask
      have hids : (s.withStore store).control.db.issuedIDs = id :: s.control.db.issuedIDs :=
        hissued
      rw [hids]
      rcases (hmem task).mp htask with hbefore | rfl
      · exact List.mem_cons_of_mem _ (hs.issued task hbefore)
      · rw [hid]
        exact List.mem_cons_self
    case single =>
      intro task htask other hother hactive hotherActive hsame
      rcases (hmem task).mp htask with hbefore | rfl
      · rcases (hmem other).mp hother with hotherBefore | rfl
        · exact hs.single task hbefore other hotherBefore hactive hotherActive hsame
        · rw [hinactive task hbefore (hsame.symm.trans hn)] at hactive
          cases hactive
      · rcases (hmem other).mp hother with hotherBefore | rfl
        · rw [hinactive other hotherBefore (hsame.trans hn)] at hotherActive
          cases hotherActive
        · rfl

/-! ### Steps -/

/-- The statement brings no digest. -/
def quiet : Lifecycle.Statement → Bool
  | .updateNode .. | .recordNodeUpgradeReport _ => false
  | _ => true

theorem Backed.of_quiet {received : List Receipt} {n : String} {statement : Lifecycle.Statement}
    (h : quiet statement = true) : Backed received n statement := by
  cases statement with
  | updateNode | recordNodeUpgradeReport => cases h
  | setNodeCapabilities | recordReport | reconcileNodeUpgrades | reconcilePublishTasks
    | setNodeCertificate | recordMonitoringRound => trivial

theorem Backed.more {received receipts : List Receipt} {n : String}
    {statement : Lifecycle.Statement} (h : Backed received n statement) :
    Backed (receipts ++ received) n statement := by
  cases statement with
  | updateNode =>
    obtain ⟨receipt, hreceipt, hrest⟩ := h
    exact ⟨receipt, List.mem_append_right _ hreceipt, hrest⟩
  | recordNodeUpgradeReport report =>
    intro hsucceeded
    obtain ⟨receipt, hreceipt, hrest⟩ := h hsucceeded
    exact ⟨receipt, List.mem_append_right _ hreceipt, hrest⟩
  | setNodeCapabilities | recordReport | reconcileNodeUpgrades | reconcilePublishTasks
    | setNodeCertificate | recordMonitoringRound => trivial

/-- The statements that wait after a step waited before, or bring no digest. -/
theorem control_requests (s : Lifecycle.State) {a : Lifecycle.Action}
    (ha : bringsDigest a = false) :
    ∀ request ∈ (Lifecycle.step s a).requests, ∀ statement ∈ request.statements,
      (∃ before ∈ s.requests, before.nodeID = request.nodeID ∧ statement ∈ before.statements) ∨
        quiet statement = true := by
  have hsame : ∀ request ∈ s.requests, ∀ statement ∈ request.statements,
      (∃ before ∈ s.requests, before.nodeID = request.nodeID ∧ statement ∈ before.statements) ∨
        quiet statement = true :=
    fun request hrequest statement hstatement => .inl ⟨request, hrequest, rfl, hstatement⟩
  have henqueue : ∀ db nodeID statements, (∀ statement ∈ statements, quiet statement = true) →
      ∀ request ∈ ({ s with db := db }.enqueue nodeID statements).requests,
        ∀ statement ∈ request.statements,
          (∃ before ∈ s.requests, before.nodeID = request.nodeID ∧
            statement ∈ before.statements) ∨ quiet statement = true := by
    intro db nodeID statements hquiet request hrequest statement hstatement
    rcases List.mem_append.mp hrequest with hbefore | hnew
    · exact hsame request hbefore statement hstatement
    · obtain rfl := List.mem_singleton.mp hnew
      exact .inr (hquiet statement hstatement)
  cases a with
  | node op now =>
    simp only [Lifecycle.step]
    split
    · exact hsame
    · unfold Lifecycle.State.nodeOp
      split
      · intro request hrequest statement hstatement
        obtain ⟨before, hbefore, rfl⟩ := List.mem_map.mp hrequest
        exact .inl ⟨before, hbefore, rfl, hstatement⟩
      · exact hsame
  | monitoringTarget op now =>
    simp only [Lifecycle.step, Lifecycle.State.onDatabase]
    split
    · exact hsame
    · exact hsame
  | startUpgrade nodeID id targetSHA256 deadline now => cases ha
  | reconcileNodeUpgrades now => exact hsame
  | enroll token fingerprint now =>
    simp only [Lifecycle.step]
    split
    · refine henqueue _ _ _ fun statement hstatement => ?_
      obtain rfl := List.mem_singleton.mp hstatement
      rfl
    · exact hsame
  | request fingerprint call =>
    simp only [Lifecycle.step]
    split
    · refine henqueue _ _ _ fun statement hstatement => ?_
      cases call with
      | heartbeat => cases ha
      | upgradeReport report => cases ha
      | renew fingerprint =>
        obtain rfl := List.mem_singleton.mp hstatement
        rfl
      | monitoringReport round =>
        obtain rfl := List.mem_singleton.mp hstatement
        rfl
    · exact hsame
  | statement i now =>
    simp only [Lifecycle.step]
    split
    · next request statement rest hnext =>
      split
      · exact hsame
      · unfold Lifecycle.State.execute
        split
        · intro after hafter waiting hwaiting
          rcases List.mem_or_eq_of_mem_set hafter with hbefore | rfl
          · exact hsame after hbefore waiting hwaiting
          · -- the rest of the request has waited with it
            obtain ⟨hrequest, hstatements⟩ := Lifecycle.next_eq_some hnext
            refine .inl ⟨request, hrequest, rfl, ?_⟩
            rw [hstatements]
            exact List.mem_cons_of_mem _ hwaiting
        · intro after hafter
          exact hsame after (List.mem_of_mem_eraseIdx hafter)
    · exact hsame

/-- An admitted request has brought what its statements bring. -/
theorem Evidenced.admitted {s : State} (hs : Evidenced s) {call : Lifecycle.EdgeCall}
    {receipts : List Receipt}
    (hbacked : ∀ statement ∈ call.statements, Backed (receipts ++ s.received) nodeID statement) :
    Evidenced (s.admitted nodeID call receipts) where
  succeeded := by
    intro task htask hsucceeded
    obtain ⟨receipt, hreceipt, hsupports⟩ := hs.succeeded task htask hsucceeded
    exact ⟨receipt, List.mem_append_right _ hreceipt, hsupports⟩
  targets := hs.targets
  digests := by
    intro node hnode
    rcases hs.digests node hnode with hempty | ⟨receipt, hreceipt, hrest⟩
    · exact .inl hempty
    · exact .inr ⟨receipt, List.mem_append_right _ hreceipt, hrest⟩
  requests := by
    intro request hrequest statement hstatement
    rcases List.mem_append.mp hrequest with hbefore | hnew
    · exact (hs.requests request hbefore statement hstatement).more
    · obtain rfl := List.mem_singleton.mp hnew
      exact hbacked statement hstatement
  issued := hs.issued
  single := hs.single

/-- What the next statement of a request brings has been received. -/
theorem Evidenced.waiting {s : State} (hs : Evidenced s) {i : Nat} {request : Lifecycle.Request}
    {statement : Lifecycle.Statement} {rest : List Lifecycle.Statement}
    (h : s.control.next i = some (request, statement, rest)) :
    Backed s.received request.nodeID statement := by
  obtain ⟨hrequest, hstatements⟩ := Lifecycle.next_eq_some h
  refine hs.requests request hrequest statement ?_
  rw [hstatements]
  exact List.mem_cons_self

theorem Evidenced.control {s : State} (hs : Evidenced s) {a : Lifecycle.Action}
    (ha : bringsDigest a = false) :
    Evidenced { s with control := Lifecycle.step s.control a } := by
  refine hs.of_earns (control_earns s.control ha) rfl ?_ ?_ ?_
  · intro task htask hcompletes
    cases a with
    | reconcileNodeUpgrades now => exact hs.runsTarget htask hcompletes
    | statement i now =>
      simp only [actionCompletes] at hcompletes
      cases hnext : s.control.next i with
      | none =>
        rw [hnext] at hcompletes
        cases hcompletes
      | some entry =>
        obtain ⟨request, statement, rest⟩ := entry
        rw [hnext] at hcompletes
        exact hs.completes (hs.waiting hnext) htask hcompletes
    | node | monitoringTarget | startUpgrade | enroll | request => cases hcompletes
  · intro n digest hbrings
    cases a with
    | statement i now =>
      simp only [actionBrings] at hbrings
      cases hnext : s.control.next i with
      | none =>
        rw [hnext] at hbrings
        cases hbrings
      | some entry =>
        obtain ⟨request, statement, rest⟩ := entry
        rw [hnext] at hbrings
        have hbacked := hs.waiting hnext
        cases statement with
        | updateNode =>
          obtain ⟨rfl, rfl⟩ := hbrings
          exact hbacked
        | setNodeCapabilities | recordReport | reconcileNodeUpgrades | reconcilePublishTasks
          | setNodeCertificate | recordMonitoringRound | recordNodeUpgradeReport => cases hbrings
    | node | monitoringTarget | startUpgrade | reconcileNodeUpgrades | enroll | request =>
      cases hbrings
  · intro request hrequest statement hstatement
    rcases control_requests s.control ha request hrequest statement hstatement with
      ⟨before, hbefore, hn, hwaiting⟩ | hquiet
    · rw [← hn]
      exact hs.requests before hbefore statement hwaiting
    · exact .of_quiet hquiet

/-- The digest of a heartbeat has been received with it. -/
theorem heartbeat_backed {received : List Receipt} {n digest lastError agentVersion
    activeUpgradeID : String} {capabilities : List String} {appliedVersion : Nat}
    {report : Option ApplyReport} {statement : Lifecycle.Statement}
    (h : statement ∈ (Lifecycle.EdgeCall.heartbeat capabilities appliedVersion lastError report
      agentVersion (normalizeDigest digest) activeUpgradeID).statements) :
    Backed ([⟨n, none, digest⟩] ++ received) n statement := by
  simp only [Lifecycle.EdgeCall.statements, List.mem_cons, List.not_mem_nil, or_false] at h
  rcases h with rfl | rfl | rfl | rfl | rfl
  · trivial
  · trivial
  · exact ⟨_, List.mem_cons_self, rfl, rfl, rfl⟩
  · trivial
  · trivial

/-- So has the digest of a report of success. -/
theorem upgradeReport_backed {received : List Receipt} {n : String} {report : NodeUpgradeReport}
    {statement : Lifecycle.Statement}
    (h : statement ∈ (Lifecycle.EdgeCall.upgradeReport report.normalized).statements) :
    Backed (receiptOf n report ++ received) n statement := by
  obtain rfl := List.mem_singleton.mp h
  intro hsucceeded
  have hstatus : report.status = .succeeded := hsucceeded
  refine ⟨⟨n, some (Text.trimSpace report.taskID), report.installedSHA256⟩,
    List.mem_append_left _ ?_, rfl, rfl, rfl⟩
  rw [receiptOf, hstatus]
  exact List.mem_cons_self

theorem Evidenced.step {s : State} (hs : Evidenced s) (a : Action) :
    Evidenced (Evidence.step s a) := by
  cases a with
  | control a =>
    simp only [Evidence.step]
    split
    · exact hs
    · next ha => exact hs.control (Bool.eq_false_iff.mpr ha)
  | startUpgrade nodeID id edgeBinarySHA256 deadline now =>
    simp only [Evidence.step]
    split
    · simp only [Lifecycle.step, Lifecycle.onStore]
      cases hcreate : s.control.db.toStore.createOrGetNodeUpgrade nodeID id
          (normalizeDigest edgeBinarySHA256) deadline now with
      | error e => exact hs
      | ok store => exact hs.create hcreate
    · exact hs
  | heartbeat fingerprint capabilities appliedVersion lastError report agentVersion agentSHA256
      activeUpgradeID =>
    simp only [Evidence.step]
    split
    · split
      · exact hs.admitted fun statement hstatement => heartbeat_backed hstatement
      · exact hs
    · exact hs
  | upgradeReport fingerprint report =>
    simp only [Evidence.step]
    split
    · split
      · exact hs.admitted fun statement hstatement => upgradeReport_backed hstatement
      · exact hs
    · exact hs
  | failActiveNodeUpgrade nodeID code detail now =>
    have hearns : Earns (fun _ => False) (fun _ _ => False) s.control.db.toStore
        (s.control.db.toStore.failActiveNodeUpgrade nodeID code detail now) :=
      failActiveNodeUpgrade_earns _ nodeID code detail now
    exact hs.of_earns hearns rfl (fun _ _ hnone => hnone.elim) (fun _ _ hnone => hnone.elim)
      hs.requests

theorem evidenced_initial : Evidenced initial where
  succeeded := fun _ htask => by cases htask
  targets := fun _ htask => by cases htask
  digests := fun _ hnode => by cases hnode
  requests := fun _ hrequest => by cases hrequest
  issued := fun _ htask => by cases htask
  single := fun _ htask => by cases htask

theorem evidenced (as : List Action) : Evidenced (run Evidence.step initial as) :=
  run_invariant (fun _ a hs => hs.step a) evidenced_initial as

/-! ### Success is final -/

/-- The task with this identifier has succeeded: it is gone with its node, or still there. -/
structure Settled (s : State) (taskID : String) : Prop where
  issued : taskID ∈ s.control.db.issuedIDs
  succeeded : ∀ task ∈ s.tasks, task.id = taskID → task.status = .succeeded

theorem Settled.of_earns {s s' : State} {taskID : String} (h : Settled s taskID)
    {P : NodeUpgradeTask → Prop} (hearns : Earns P D s.control.db.toStore s'.control.db.toStore) :
    Settled s' taskID where
  issued := hearns.issued h.issued
  succeeded := by
    intro task' htask' hid
    obtain ⟨task, htask, hsame⟩ := hearns.tasks task' htask'
    exact hsame.absorbed (h.succeeded task htask (hsame.kept.id.symm.trans hid))

theorem Settled.step {s : State} {taskID : String} (h : Settled s taskID) (a : Action) :
    Settled (Evidence.step s a) taskID := by
  cases a with
  | control a =>
    simp only [Evidence.step]
    split
    · exact h
    · next ha => exact h.of_earns (control_earns s.control (Bool.eq_false_iff.mpr ha))
  | startUpgrade nodeID id edgeBinarySHA256 deadline now =>
    simp only [Evidence.step]
    split
    · simp only [Lifecycle.step, Lifecycle.onStore]
      cases hcreate : s.control.db.toStore.createOrGetNodeUpgrade nodeID id
          (normalizeDigest edgeBinarySHA256) deadline now with
      | error e => exact h
      | ok store =>
        rcases createOrGetNodeUpgrade_creates hcreate with rfl |
          ⟨-, -, hfresh, hissued, -, new, -, hnew, -, -, hmem⟩
        · exact h
        · have hids : store.issuedIDs = id :: s.control.db.issuedIDs := hissued
          constructor
          · exact hids ▸ List.mem_cons_of_mem _ h.issued
          · intro task htask hid
            rcases (hmem task).mp htask with hbefore | rfl
            · exact h.succeeded task hbefore hid
            · exact absurd (hid.symm.trans hnew ▸ h.issued) hfresh
    · exact h
  | heartbeat fingerprint capabilities appliedVersion lastError report agentVersion agentSHA256
      activeUpgradeID =>
    simp only [Evidence.step]
    split
    · split
      · exact ⟨h.issued, h.succeeded⟩
      · exact h
    · exact h
  | upgradeReport fingerprint report =>
    simp only [Evidence.step]
    split
    · split
      · exact ⟨h.issued, h.succeeded⟩
      · exact h
    · exact h
  | failActiveNodeUpgrade nodeID code detail now =>
    have hearns : Earns (fun _ => False) (fun _ _ => False) s.control.db.toStore
        (s.control.db.toStore.failActiveNodeUpgrade nodeID code detail now) :=
      failActiveNodeUpgrade_earns _ nodeID code detail now
    exact h.of_earns hearns

/-! ### Reports -/

/-- A request that executes a report changes the status of the newest task of its node only. -/
theorem report_newest {i : Nat} {request : Lifecycle.Request} {report : NodeUpgradeReport}
    {rest : List Lifecycle.Statement}
    (hnext : s.control.next i = some (request, .recordNodeUpgradeReport report, rest))
    {task task' : NodeUpgradeTask} (htask : task ∈ s.tasks)
    (htask' : task' ∈ (step s (.control (.statement i now))).tasks) (hid : task'.id = task.id)
    (hchanged : task'.status ≠ task.status) :
    ∀ other ∈ s.tasks, other.nodeID = task.nodeID → other.createdAt ≤ task.createdAt := by
  have hsame : task' ∈ s.tasks → False := fun hbefore =>
    hchanged (congrArg NodeUpgradeTask.status (Table.eq_of_key_eq hbefore htask hid))
  simp only [step, bringsDigest, byAgent, Bool.false_eq_true, if_false, Lifecycle.step, hnext]
    at htask'
  split at htask'
  · exact absurd htask' hsame
  · unfold Lifecycle.State.execute at htask'
    cases hexecute : (Lifecycle.Statement.recordNodeUpgradeReport report).execute s.control.db
        request.nodeID now with
    | error e =>
      rw [hexecute] at htask'
      exact absurd htask' hsame
    | ok db =>
      rw [hexecute] at htask'
      obtain ⟨store, hrecord, rfl⟩ := Lifecycle.onStore_eq_ok.mp hexecute
      exact recordNodeUpgradeReport_newest hrecord htask htask' hid hchanged

end

end Upgrading.Evidence

end SimpleCdn
