import SimpleCdn.Lifecycle.Identity

/-!
# Online upgrades, on both sides

The control plane is that of `Lifecycle`: administrators, its own rounds, and the requests of
edges that are under way.  Each edge keeps the task it works on in its state directory, in
`active-upgrade-task` and in the files of the task's directory, and reports on it before it asks
for another one.  An answer may be lost, a request may be lost or arrive after the edge has given
it up, and the agent may be restarted anywhere.

`ProcessUpgrade` runs after a heartbeat that was answered; here it may run at any time.  What the
updater and failed downloads say, as far as a report carries it, is given with the action.
-/

namespace SimpleCdn

open Store

/-- `NodeUpgradeInstruction`, without the locations of the artifacts. -/
structure NodeUpgradeInstruction where
  taskID : String
  targetSHA256 : String
  deadlineAt : Time

/-- `Store.NodeUpgradeInstruction`, after the reconciliation. -/
def Store.nodeUpgradeInstruction (db : Store) (nodeID : String) :
    Except StoreError NodeUpgradeInstruction := do
  let task ← orError (db.activeNodeUpgrade nodeID) .notFound
  return ⟨task.id, task.targetSHA256, task.deadlineAt⟩

/-- The other fields of a report are trimmed when they are written. -/
def NodeUpgradeReport.trimmed (report : NodeUpgradeReport) : NodeUpgradeReport :=
  { report with detail := Text.trimSpace report.detail }

def NodeUpgradeReport.valid (report : NodeUpgradeReport) : Bool :=
  Text.byteLength report.errorCode ≤ 64 && Text.byteLength report.detail ≤ 4096

/-- The handler `edgeUpgradeReport`. -/
def edgeUpgradeReport (db : Store) (nodeID : String) (report : NodeUpgradeReport) (now : Time) :
    Except StoreError Store := do
  require (report.trimmed.valid = true) (.message "invalid node upgrade report")
  db.recordNodeUpgradeReport nodeID report.trimmed now

namespace Upgrading

open Transition

/-- `active-upgrade-task` and the directory of the task it names. -/
structure LocalUpgrade where
  taskID : String
  /-- `manifest.json` -/
  targetSHA256 : String
  launched : Bool
  /-- `updater-terminal` -/
  terminal : Bool
  /-- `result.json` -/
  result : Option NodeUpgradeReport

/-- Where `ProcessUpgrade` is. -/
inductive Phase
  | idle
  | pulled (instruction : NodeUpgradeInstruction)
  /-- The task is in the state directory, and its artifacts are being downloaded. -/
  | staging
  /-- The updater is being started. -/
  | starting

structure Edge where
  fingerprint : Option String
  agentSHA256 : String
  upgrade : Option LocalUpgrade
  phase : Phase

structure State where
  control : Lifecycle.State
  edges : String → Edge

/-- What becomes of a request that is sent. -/
inductive Delivery
  | answered
  /-- The answer is lost. -/
  | unanswered
  /-- It arrives after the edge has given it up. -/
  | late
  | lost
  deriving DecidableEq

/-- Where `stageAndStartUpgrade` fails. -/
inductive StageError
  | artifactDownloadFailed
  | startReportFailed
  | updaterStartFailed

def StageError.code : StageError → String
  | artifactDownloadFailed => "artifact_download_failed"
  | startReportFailed => "start_report_failed"
  | updaterStartFailed => "updater_start_failed"

inductive Action
  /-- What happens on the control plane besides heartbeats and upgrade reports being received. -/
  | control (a : Lifecycle.Action)
  /-- The certificate of an enrollment or a renewal reaches the edge. -/
  | certificate (host fingerprint : String)
  | restart (host agentSHA256 : String)
  | heartbeat (host : String) (capabilities : List String) (appliedVersion : Nat)
      (lastError : String) (report : Option ApplyReport) (agentVersion : String)
  | pull (host : String) (now : Time)
  /-- The instruction names the artifact that already runs. -/
  | reportInstalled (host : String) (now : Time) (delivery : Delivery)
  | stage (host : String) (now : Time)
  | reportApplying (host : String) (now : Time) (delivery : Delivery)
  | started (host : String)
  | stageFails (host : String) (error : StageError) (detail : String)
  /-- The updater writes its result. -/
  | updater (host : String) (installed : Bool) (installedSHA256 detail : String)
  /-- `resumeUpgrade` without a result; `active` says whether the updater runs. -/
  | inspect (host : String) (active : Bool)
  /-- `resumeUpgrade` with a result. -/
  | reportResult (host : String) (now : Time) (delivery : Delivery)

/-- An edge that is not enrolled yet. -/
def Edge.new : Edge where
  fingerprint := none
  agentSHA256 := ""
  upgrade := none
  phase := .idle

def initial : State where
  control := Lifecycle.initial
  edges := fun _ => .new

/-! ### Reports -/

def applyingReport (taskID : String) : NodeUpgradeReport :=
  ⟨taskID, .applying, "", "upgrade artifacts verified; starting edge installer", ""⟩

def installedReport (instruction : NodeUpgradeInstruction) (agentSHA256 : String) :
    NodeUpgradeReport :=
  ⟨instruction.taskID, .succeeded, "", "edge already runs the requested artifact", agentSHA256⟩

def failedReport (taskID errorCode detail installedSHA256 : String) : NodeUpgradeReport :=
  ⟨taskID, .failed, errorCode, detail, installedSHA256⟩

/-- `resumeUpgrade`, when nothing has been launched. -/
def notLaunched (taskID : String) : NodeUpgradeReport :=
  failedReport taskID "updater_interrupted" "edge upgrade was interrupted before the updater started"
    ""

/-- `resumeUpgrade`, when the updater has stopped. -/
def stopped (taskID : String) : NodeUpgradeReport :=
  failedReport taskID "updater_interrupted" "edge updater stopped without recording a result" ""

/-- The result of `RunUpgradeHelper`. -/
def updaterReport (u : LocalUpgrade) (installed : Bool) (installedSHA256 detail : String) :
    NodeUpgradeReport :=
  if installed && installedSHA256 = u.targetSHA256 then
    ⟨u.taskID, .succeeded, "", "edge online upgrade completed", installedSHA256⟩
  else failedReport u.taskID "installer_failed" detail installedSHA256

/-- The report that is sent next about a task in the state directory. -/
def Edge.nextReport (e : Edge) (u : LocalUpgrade) : NodeUpgradeReport :=
  match u.result, e.phase with
  | some report, _ => report
  | none, .staging => applyingReport u.taskID
  | none, _ => if u.launched then stopped u.taskID else notLaunched u.taskID

/-! ### Steps -/

def State.setEdge (s : State) (host : String) (e : Edge) : State :=
  { s with edges := Function.update s.edges host e }

/-- `activeUpgradeID` -/
def Edge.activeUpgradeID (e : Edge) : String :=
  match e.upgrade with
  | some u => u.taskID
  | none => ""

/-- Whose requests the certificate of an edge authenticates. -/
def Edge.authenticates (e : Edge) (db : Store) : Option String :=
  match e.fingerprint with
  | some fingerprint => (db.nodeIDByFingerprint fingerprint).toOption
  | none => none

/-- A request on the way to the control plane, admitted at once or later. -/
def State.send (s : State) (e : Edge) (call : Lifecycle.EdgeCall) : State :=
  match e.fingerprint with
  | some fingerprint => { s with control := Lifecycle.step s.control (.request fingerprint call) }
  | none => s

/-- The request that has been admitted last is executed. -/
def State.execute (s : State) (now : Time) : State :=
  { s with
    control := Lifecycle.step s.control (.statement (s.control.requests.length - 1) now) }

/-- The control plane receives a report, and accepts it or not. -/
def State.receive (s : State) (e : Edge) (report : NodeUpgradeReport) (now : Time) :
    Option State :=
  match e.authenticates s.control.db.toStore with
  | some nodeID =>
    match edgeUpgradeReport s.control.db.toStore nodeID report now with
    | .ok _ => some ((s.send e (.upgradeReport report.trimmed)).execute now)
    | .error _ => none
  | none => none

/-- `sendUpgradeReport`: what the control plane makes of it, and whether the edge gets to know
that it was accepted. -/
def State.report (s : State) (e : Edge) (report : NodeUpgradeReport) (now : Time)
    (delivery : Delivery) : State × Bool :=
  match delivery with
  | .lost => (s, false)
  | .late =>
    if report.trimmed.valid then (s.send e (.upgradeReport report.trimmed), false) else (s, false)
  | .answered | .unanswered =>
    match s.receive e report now with
    | some s' => (s', delivery = .answered)
    | none => (s, false)

/-- `GET /api/edge/v1/upgrade` -/
def State.pull (s : State) (host : String) (now : Time) : State :=
  match (s.edges host).authenticates s.control.db.toStore with
  | some nodeID =>
    let s := { s with control := Lifecycle.step s.control (.reconcileNodeUpgrades now) }
    match s.control.db.toStore.nodeUpgradeInstruction nodeID with
    | .ok instruction => s.setEdge host { s.edges host with phase := .pulled instruction }
    | .error _ => s
  | none => s

/-- `stageAndStartUpgrade`, up to the first download. -/
def Edge.stage (e : Edge) (instruction : NodeUpgradeInstruction) : Edge :=
  { e with
    upgrade := some ⟨instruction.taskID, instruction.targetSHA256, false, false, none⟩
    phase := .staging }

def Edge.setUpgrade (e : Edge) (u : LocalUpgrade) : Edge :=
  { e with upgrade := some u }

def Edge.inspect (e : Edge) (u : LocalUpgrade) (active : Bool) : Edge :=
  if u.launched = false then e.setUpgrade { u with result := some (notLaunched u.taskID) }
  else if active then e.setUpgrade { u with terminal := false }
  else if u.terminal = false then e.setUpgrade { u with terminal := true }
  else e.setUpgrade { u with result := some (stopped u.taskID) }

/-- Requests of the agents come from the agents. -/
def byAgent : Lifecycle.Action → Bool
  | .request _ (.heartbeat ..) | .request _ (.upgradeReport _) => true
  | _ => false

def step (s : State) : Action → State
  | .control a => if byAgent a then s else { s with control := Lifecycle.step s.control a }
  | .certificate host fingerprint =>
    if s.control.fingerprints.contains fingerprint then
      s.setEdge host { s.edges host with fingerprint := some fingerprint }
    else s
  | .restart host agentSHA256 =>
    s.setEdge host { s.edges host with agentSHA256 := agentSHA256, phase := .idle }
  | .heartbeat host capabilities appliedVersion lastError report agentVersion =>
    let e := s.edges host
    s.send e (.heartbeat capabilities appliedVersion lastError report agentVersion e.agentSHA256
      e.activeUpgradeID)
  | .pull host now =>
    match (s.edges host).upgrade, (s.edges host).phase with
    | none, .idle => s.pull host now
    | _, _ => s
  | .reportInstalled host now delivery =>
    let e := s.edges host
    match e.phase with
    | .pulled instruction =>
      if now < instruction.deadlineAt ∧ instruction.targetSHA256 = e.agentSHA256 then
        (s.report e (installedReport instruction e.agentSHA256) now delivery).1.setEdge host
          { e with phase := .idle }
      else s
    | _ => s
  | .stage host now =>
    let e := s.edges host
    match e.phase with
    | .pulled instruction =>
      if now < instruction.deadlineAt ∧ instruction.targetSHA256 ≠ e.agentSHA256 then
        s.setEdge host (e.stage instruction)
      else s.setEdge host { e with phase := .idle }
    | _ => s
  | .reportApplying host now delivery =>
    let e := s.edges host
    match e.upgrade, e.phase with
    | some u, .staging =>
      match s.report e (applyingReport u.taskID) now delivery with
      | (s, true) => s.setEdge host { e.setUpgrade { u with launched := true } with phase := .starting }
      | (s, false) => s
    | _, _ => s
  | .started host =>
    match (s.edges host).phase with
    | .starting => s.setEdge host { s.edges host with phase := .idle }
    | _ => s
  | .stageFails host error detail =>
    let e := s.edges host
    match e.upgrade, e.phase with
    | some u, .staging | some u, .starting =>
      s.setEdge host
        { e.setUpgrade { u with result := some (failedReport u.taskID error.code detail "") } with
          phase := .idle }
    | _, _ => s
  | .updater host installed installedSHA256 detail =>
    let e := s.edges host
    match e.upgrade with
    | some u =>
      if u.launched then
        s.setEdge host (e.setUpgrade
          { u with result := some (updaterReport u installed installedSHA256 detail) })
      else s
    | none => s
  | .inspect host active =>
    let e := s.edges host
    match e.upgrade, e.phase with
    | some u, .idle => if u.result.isNone then s.setEdge host (e.inspect u active) else s
    | _, _ => s
  | .reportResult host now delivery =>
    let e := s.edges host
    match e.upgrade, e.phase with
    | some u, .idle =>
      match u.result with
      | some result =>
        match s.report e result now delivery with
        | (s, true) => s.setEdge host { e with upgrade := none }
        | (s, false) => s
      | none => s
    | _, _ => s

end Upgrading

end SimpleCdn
