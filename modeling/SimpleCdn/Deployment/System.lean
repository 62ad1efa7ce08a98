import SimpleCdn.Control.Certificates
import SimpleCdn.Control.SiteDeletion
import SimpleCdn.Lib.Transition
import SimpleCdn.Store.NodeEffects

/-!
# The control plane

The operations of the control plane as one transition system.  An action is one call of an entry
point, one round of a deletion, one stage of a certificate job or one node operation; the
publisher's mutex, the manager of deletions and the single certificate worker keep calls of one
kind apart.  What other calls may do between the reads and the transaction of one `PublishSite`
or `UpdateSite` call is the subject of the system of concurrent site calls, not of this one.

Besides the database and the certificate worker, a state keeps a history that no operation reads:
`saved`, every node state saved so far, the latest first; `commits`, the publications committed by
publish calls; `answers`, the tasks that publish calls have returned without error; `passedOver`,
the nodes that were retired when a publish or a removal affected them; `begun`, the sites whose
deletion has begun; and `leaving`, with each of these the nodes that were active and assigned the
site at that moment.
-/

namespace SimpleCdn.Deployment

/-- The certificate worker's job: the site it has read, and whether the certificate is stored. -/
structure RunningJob where
  job : CertificateJob
  site : Site
  stored : Bool
  deriving DecidableEq

/-- A publication, with the task of the call that committed it, the nodes of the old and the new
publication, and those of them that were retired. -/
structure Commit where
  taskID : String
  publication : SitePublication
  audience : List String
  passedOver : List String
  deriving DecidableEq

/-- A task that a publish call has returned, with the version the site had at the call. -/
structure Answer where
  taskID : String
  configVersion : Nat
  deriving DecidableEq

structure State where
  store : Store
  queue : List CertificateJob
  running : Option RunningJob
  saved : List NodeStateRow
  commits : List Commit
  answers : List Answer
  passedOver : List String
  begun : List String
  leaving : List (String × String)

inductive Action
  | createSite (id : String) (draft : SiteDraft) (zoneID : String) (now : Time)
  | updateSite (id : String) (draft : SiteDraft) (zoneID : String) (now : Time)
  /-- The server's `invalidateCache` up to its `PublishSite`, which is an action of its own. -/
  | invalidateCache (siteID : String) (now : Time)
  | publishSite (siteID taskID : String) (now : Time)
  | publishAll (now : Time)
  | publishNode (nodeID : String) (now : Time)
  | reconcilePublishTasks (now : Time)
  | beginDeletion (siteID taskID actor remoteAddr : String) (now : Time)
  | advanceDeletion (taskID : String) (external : Except StoreError Unit) (now : Time)
  | issueRequest (siteID taskID : String) (now : Time)
  | renewRequest (siteID taskID : String) (now : Time)
  | reconcileCertificates (newTaskID : String → String) (now : Time)
  | startJob (now : Time)
  | storeIssued (issued : Except StoreError (Certificate × PrivateKey)) (now : Time)
  | publishRenewed (taskID : String) (now : Time)
  | restart (now : Time)
  | node (op : NodeOp) (now : Time)
  | consumeEnrollmentToken (token : String) (now : Time)
  | setNodeCertificate (nodeID fingerprint : String) (now : Time)
  | setPolicies (securityPolicies : List SecurityPolicy) (rateLimitPolicies : List RateLimitPolicy)
      (cacheDefaultSizeGB : Int)
  | setUpgrades (tasks : Table NodeUpgradeTask)

def initial : State where
  store := Store.empty
  queue := []
  running := none
  saved := []
  commits := []
  answers := []
  passedOver := []
  begun := []
  leaving := []

/-! ### Publishing a site -/

/-- A call of `PublishSite`. -/
structure PublishCall where
  db : Store
  siteID : String
  taskID : String
  now : Time

namespace PublishCall

def result (call : PublishCall) : Except StoreError DeploymentTask × Store :=
  SimpleCdn.publishSite call.db call.siteID call.taskID call.now

/-- What the call renders, when it has a task of its own. -/
def rendering (call : PublishCall) : Option RenderCall :=
  match startPublish call.db call.siteID call.taskID call.now with
  | .ok (_, _, true, db) => (siteCall db call.siteID false call.now).toOption
  | _ => none

/-- The publication the call has committed. -/
def commit (call : PublishCall) : Option Commit :=
  match startPublish call.db call.siteID call.taskID call.now with
  | .ok (site, task, true, db) =>
    match publishPrepared db call.siteID task.id site.configVersion call.now, call.rendering with
    | .ok (_, db), some rendering =>
      (db.sitePublications.find? call.siteID).map fun publication =>
        ⟨task.id, publication, rendering.affected, rendering.passedOver⟩
    | _, _ => none
  | _ => none

/-- The task the call has returned. -/
def answer (call : PublishCall) : Option Answer :=
  match call.result.1, call.db.sites.find? call.siteID with
  | .ok task, some row => some ⟨task.id, row.configVersion⟩
  | _, _ => none

end PublishCall

/-- The database after a step; new rows of `node_states` are recorded. -/
def State.write (s : State) (db : Store) : State :=
  { s with
    store := db
    saved := (db.nodeStates.rows.filter fun row => row ∉ s.store.nodeStates.rows) ++ s.saved }

def State.publish (s : State) (call : PublishCall) : State :=
  { s.write call.result.2 with
    commits := call.commit.toList ++ s.commits
    answers := call.answer.toList ++ s.answers
    passedOver := (call.commit.elim [] Commit.passedOver) ++ s.passedOver }

/-- A transaction runs, or is rolled back. -/
def State.tryWrite (s : State) (result : Except StoreError Store) : State :=
  match result with
  | .ok db => s.write db
  | .error _ => s

def State.writeQueue (s : State) (manager : Store × List CertificateJob) : State :=
  { s with store := manager.1, queue := manager.2 }

/-- The publish call of an action: the one a request makes, or the one that ends a renewal. -/
def State.publishCall (s : State) : Action → Option PublishCall
  | .publishSite siteID taskID now => some ⟨s.store, siteID, taskID, now⟩
  | .publishRenewed taskID now =>
    match s.running with
    | some running => if running.stored then some ⟨s.store, running.site.id, taskID, now⟩ else none
    | none => none
  | _ => none

/-! ### Deleting a site -/

/-- The site's draft or publication lists the node. -/
def assigned (db : Store) (siteID n : String) : Bool :=
  (db.sites.find? siteID).any (fun site => site.nodes.contains n) ||
    (db.sitePublications.find? siteID).any fun publication => publication.site.nodes.contains n

/-- The active nodes that are assigned the site. -/
def leavingNodes (db : Store) (siteID : String) : List (String × String) :=
  (db.nodes.rows.filter fun node => node.status = .active && assigned db siteID node.id).map
    fun node => (siteID, node.id)

/-- The round is about to prepare the edges for the removal of this site: the database after the
task has been marked, and the site. -/
def stagingRound (db : Store) (taskID : String) (external : Except StoreError Unit) (now : Time) :
    Option (Store × String) :=
  match db.siteDeletionJobForTask taskID with
  | none => none
  | some job =>
    if job.phase = .withdrawingDNS && external.isOk then
      match db.setSiteDeletionPhase taskID .withdrawingDNS .dispatching
          "withdrawing managed DNS records" now with
      | .ok db => some (db, job.siteID)
      | .error _ => none
    else none

/-- What the round renders. -/
def stagingCall (db : Store) (taskID : String) (external : Except StoreError Unit) (now : Time) :
    Option RenderCall :=
  match stagingRound db taskID external now with
  | some (db, siteID) => (siteCall db siteID true now).toOption
  | none => none

/-- The nodes a removal that has been staged has passed over. -/
def stagingPassedOver (db : Store) (taskID : String) (external : Except StoreError Unit)
    (now : Time) : List String :=
  match stagingRound db taskID external now with
  | some (db, siteID) =>
    match stageSiteRemoval db taskID siteID now, (siteCall db siteID true now).toOption with
    | .ok _, some call => call.passedOver
    | _, _ => []
  | none => []

def State.beginDeletion (s : State) (siteID taskID actor remoteAddr : String) (now : Time) :
    State :=
  match s.store.beginSiteDeletion siteID taskID actor remoteAddr (now + deletionTimeout) now with
  | .ok (_, true, db) =>
    { s with
      store := db
      begun := siteID :: s.begun
      leaving := leavingNodes s.store siteID ++ s.leaving }
  | .ok (_, false, db) => { s with store := db }
  | .error _ => s

def State.advanceDeletion (s : State) (taskID : String) (external : Except StoreError Unit)
    (now : Time) : State :=
  -- the manager only advances deletions whose task is active
  if s.store.taskActive taskID [.deleteSite] then
    { s.write (SimpleCdn.advanceDeletion s.store taskID external now) with
      passedOver := stagingPassedOver s.store taskID external now ++ s.passedOver }
  else s

/-! ### All actions -/

def step (s : State) : Action → State
  | .createSite id draft zoneID now =>
    s.tryWrite (Prod.snd <$> s.store.createSite id draft zoneID now)
  | .updateSite id draft zoneID now =>
    s.tryWrite (Prod.snd <$> s.store.updateSite id draft zoneID now)
  | .invalidateCache siteID now =>
    s.tryWrite (Prod.snd <$> s.store.invalidateSiteCache siteID now)
  | .publishSite siteID taskID now => s.publish ⟨s.store, siteID, taskID, now⟩
  | .publishAll now => s.tryWrite (publishAll s.store now)
  | .publishNode nodeID now => s.tryWrite (publishNode s.store nodeID now)
  | .reconcilePublishTasks now => s.write (s.store.reconcilePublishTasks now)
  | .beginDeletion siteID taskID actor remoteAddr now =>
    s.beginDeletion siteID taskID actor remoteAddr now
  | .advanceDeletion taskID external now => s.advanceDeletion taskID external now
  | .issueRequest siteID taskID now =>
    s.writeQueue (SimpleCdn.issueRequest s.store s.queue siteID taskID now)
  | .renewRequest siteID taskID now =>
    s.writeQueue (SimpleCdn.renewRequest s.store s.queue siteID taskID now)
  | .reconcileCertificates newTaskID now =>
    s.writeQueue (SimpleCdn.reconcileCertificates s.store s.queue newTaskID now)
  | .startJob now =>
    match s.running, s.queue with
    | none, job :: queue =>
      let (site, db) := SimpleCdn.startJob s.store job now
      { s with store := db, queue := queue, running := site.map fun site => ⟨job, site, false⟩ }
    | _, _ => s
  | .storeIssued issued now =>
    match s.running with
    | some ⟨job, site, false⟩ =>
      let (stored, db) := SimpleCdn.storeIssued s.store job site issued now
      { s with store := db, running := if stored then some ⟨job, site, true⟩ else none }
    | _ => s
  | .publishRenewed taskID now =>
    match s.running, s.publishCall (.publishRenewed taskID now) with
    | some running, some call =>
      { s.publish call with
        store := finishRenewal running.job now call.result
        running := none }
    | _, _ => s
  | .restart now =>
    { s with store := restartCertificates s.store now, queue := [], running := none }
  | .node op now => if op.sent then s.tryWrite (op.apply s.store now) else s
  | .consumeEnrollmentToken token now =>
    s.tryWrite (Prod.snd <$> s.store.consumeEnrollmentToken token now)
  | .setNodeCertificate nodeID fingerprint now =>
    s.tryWrite (s.store.setNodeCertificate nodeID fingerprint now)
  | .setPolicies securityPolicies rateLimitPolicies cacheDefaultSizeGB =>
    { s with
      store := { s.store with
        securityPolicies := securityPolicies
        rateLimitPolicies := rateLimitPolicies
        cacheDefaultSizeGB := cacheDefaultSizeGB } }
  | .setUpgrades tasks => { s with store := { s.store with nodeUpgradeTasks := tasks } }

/-- What the action renders. -/
def State.rendering (s : State) (a : Action) : Option RenderCall :=
  match a with
  | .publishAll now => some (allCall s.store now)
  | .publishNode nodeID now => some (nodeCall s.store nodeID now)
  | .advanceDeletion taskID external now => stagingCall s.store taskID external now
  | a => (s.publishCall a).bind PublishCall.rendering

/-! ### A small control plane -/

/-- A node enrolls, reports for the first time and becomes active. -/
def enrolled (n : String) : List Action :=
  [.node (.createNode n n "192.0.2.1") 1, .node (.createEnrollmentToken n n 9) 1,
    .consumeEnrollmentToken n 1, .setNodeCertificate n n 1,
    .node (.setCapabilities n ["tcp_stream_v1"]) 1, .node (.heartbeat n 0 "" none "" "" "") 1]

/-- A site that forwards the TCP port `listenPort` of its nodes to the port `port` of an origin. -/
def forwardDraft (name : String) (nodes : List String) (listenPort port : Int) : SiteDraft where
  name := name
  domains := [name ++ ".example"]
  nodes := nodes
  primaryOrigin := ⟨"", "", "", false⟩
  backupOrigin := none
  passthrough := false
  clientMaxBodySizeMB := 0
  clientKeepaliveTimeoutSeconds := 0
  readWriteTimeoutSeconds := 0
  dnsTTLSeconds := none
  tcpOnly := true
  tcpForwards := [⟨"tcp", listenPort, false, "192.0.2.9", port, false, "", 0, 0⟩]
  enabled := true

/-- The edge `n` reports that it has applied the version. -/
def applied (n : String) (version : Nat) (now : Time) : Action :=
  .node (.heartbeat n version "" (some ⟨version, .succeeded, "", ""⟩) "" "" "") now

end SimpleCdn.Deployment
