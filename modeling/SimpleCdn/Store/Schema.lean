import SimpleCdn.Lib.Checked
import SimpleCdn.Lib.Table
import SimpleCdn.Nginx.Document

/-!
# The database

One record holds the tables of the SQLite database that the modelled operations touch.  The
database is opened with a single connection, so a transaction is one function from the store to
`Except StoreError Store`: it runs alone, and an error rolls every statement back.

Primary keys are the `Keyed` instances below.  `issuedIDs` is not a table: it records the
identifiers `uuid.NewString` has returned, which it never returns again.
-/

namespace SimpleCdn

inductive StoreError
  | notFound
  | siteDeleting
  | siteChanged
  | siteTaskActive
  | cacheDisabled
  | uninstallActive
  | uninstallNotActive
  | nodeUpgradeActive
  | upgradeRetryNotReady
  | nodeOperationActive
  | nodeAssigned
  | tokenInvalid
  /-- A `UNIQUE`, primary key or foreign key constraint refused a statement. -/
  | constraint
  | message (text : String)
  | wrapped (text : String) (inner : StoreError)
  deriving DecidableEq, Repr

structure CertificateRow where
  siteID : String
  certificateCiphertext : Sealed Certificate
  keyCiphertext : Sealed PrivateKey
  notAfter : Option Time
  updatedAt : Time
  deriving DecidableEq, Repr

structure SitePublication where
  site : Site
  certificateCiphertext : Option (Sealed Certificate)
  keyCiphertext : Option (Sealed PrivateKey)
  certificateNotAfter : Option Time
  publishedAt : Time
  deriving DecidableEq, Repr

structure SiteDomain where
  domainName : String
  siteID : String
  deriving DecidableEq, Repr

/-- A row of `node_states`.  Its certificates are stored encrypted and are decrypted wherever
they are read, so the state is kept with them in the clear. -/
structure NodeStateRow where
  nodeID : String
  state : DesiredState
  updatedAt : Time
  deriving DecidableEq, Repr

structure PublishTaskNodeRow where
  taskID : String
  nodeID : String
  targetVersion : Nat
  status : PublishNodeStatus
  errorCode : String
  detail : String
  reportedAt : Option Time
  deriving DecidableEq, Repr

inductive SiteDeletionPhase
  | withdrawingDNS
  | waitingForEdges
  | finalizing
  deriving DecidableEq, Repr

structure SiteDeletionJob where
  siteID : String
  taskID : String
  phase : SiteDeletionPhase
  actor : String
  remoteAddr : String
  createdAt : Time
  updatedAt : Time
  deriving DecidableEq, Repr

inductive NodeUninstallJobStatus
  | preparing
  | ready
  | running
  | failed
  | succeeded
  | forced
  | canceled
  deriving DecidableEq, Repr

/-- `uninstallJobBlocksStatus`: the workflow still owns the node. -/
def NodeUninstallJobStatus.blocksStatus : NodeUninstallJobStatus → Bool
  | preparing | ready | running | failed => true
  | _ => false

/-- `tokenHash` stands for the token itself: hashing does not identify two tokens. -/
structure NodeUninstallJob where
  nodeID : String
  status : NodeUninstallJobStatus
  previousStatus : NodeStatus
  tokenHash : Option String
  tokenExpiresAt : Option Time
  readyAt : Time
  affectedSiteIDs : List String
  detail : String
  forced : Bool
  startedAt : Option Time
  completedAt : Option Time
  createdAt : Time
  updatedAt : Time
  deriving DecidableEq, Repr

inductive NodeUpgradeStatus
  | queued
  | applying
  | succeeded
  | failed
  deriving DecidableEq, Repr

/-- `status IN ('queued', 'applying')`. -/
def NodeUpgradeStatus.active : NodeUpgradeStatus → Bool
  | queued | applying => true
  | _ => false

structure NodeUpgradeTask where
  id : String
  nodeID : String
  status : NodeUpgradeStatus
  sourceSHA256 : String
  targetSHA256 : String
  errorCode : String
  detail : String
  deadlineAt : Time
  startedAt : Option Time
  completedAt : Option Time
  createdAt : Time
  updatedAt : Time
  deriving DecidableEq, Repr

structure EnrollmentToken where
  tokenHash : String
  nodeID : String
  expiresAt : Time
  usedAt : Option Time
  createdAt : Time
  deriving DecidableEq, Repr

instance : Keyed Node String := ⟨Node.id⟩
instance : Keyed Site String := ⟨Site.id⟩
instance : Keyed SiteDomain String := ⟨SiteDomain.domainName⟩
instance : Keyed CertificateRow String := ⟨CertificateRow.siteID⟩
instance : Keyed SitePublication String := ⟨fun publication => publication.site.id⟩
instance : Keyed NodeStateRow String := ⟨NodeStateRow.nodeID⟩
instance : Keyed DeploymentTask String := ⟨DeploymentTask.id⟩
instance : Keyed PublishTaskNodeRow (String × String) := ⟨fun row => (row.taskID, row.nodeID)⟩
instance : Keyed SiteDeletionJob String := ⟨SiteDeletionJob.siteID⟩
instance : Keyed NodeUninstallJob String := ⟨NodeUninstallJob.nodeID⟩
instance : Keyed NodeUpgradeTask String := ⟨NodeUpgradeTask.id⟩
instance : Keyed EnrollmentToken String := ⟨EnrollmentToken.tokenHash⟩

@[simp] theorem key_node (node : Node) : key node = node.id := rfl
@[simp] theorem key_site (site : Site) : key site = site.id := rfl
@[simp] theorem key_siteDomain (claim : SiteDomain) : key claim = claim.domainName := rfl
@[simp] theorem key_certificateRow (row : CertificateRow) : key row = row.siteID := rfl
@[simp] theorem key_sitePublication (publication : SitePublication) :
    key publication = publication.site.id := rfl
@[simp] theorem key_nodeStateRow (row : NodeStateRow) : key row = row.nodeID := rfl
@[simp] theorem key_deploymentTask (task : DeploymentTask) : key task = task.id := rfl
@[simp] theorem key_publishTaskNodeRow (row : PublishTaskNodeRow) :
    key row = (row.taskID, row.nodeID) := rfl
@[simp] theorem key_siteDeletionJob (job : SiteDeletionJob) : key job = job.siteID := rfl
@[simp] theorem key_nodeUninstallJob (job : NodeUninstallJob) : key job = job.nodeID := rfl
@[simp] theorem key_nodeUpgradeTask (task : NodeUpgradeTask) : key task = task.id := rfl
@[simp] theorem key_enrollmentToken (token : EnrollmentToken) : key token = token.tokenHash := rfl

structure Store where
  nodes : Table Node
  sites : Table Site
  siteDomains : Table SiteDomain
  certificates : Table CertificateRow
  sitePublications : Table SitePublication
  nodeStates : Table NodeStateRow
  deploymentTasks : Table DeploymentTask
  publishTaskNodes : Table PublishTaskNodeRow
  siteDeletionJobs : Table SiteDeletionJob
  nodeUninstallJobs : Table NodeUninstallJob
  nodeUpgradeTasks : Table NodeUpgradeTask
  enrollmentTokens : Table EnrollmentToken
  securityPolicies : List SecurityPolicy
  rateLimitPolicies : List RateLimitPolicy
  cacheDefaultSizeGB : Int
  issuedIDs : List String

/-- A freshly migrated database. -/
def Store.empty : Store where
  nodes := ∅
  sites := ∅
  siteDomains := ∅
  certificates := ∅
  sitePublications := ∅
  nodeStates := ∅
  deploymentTasks := ∅
  publishTaskNodes := ∅
  siteDeletionJobs := ∅
  nodeUninstallJobs := ∅
  nodeUpgradeTasks := ∅
  enrollmentTokens := ∅
  securityPolicies := []
  rateLimitPolicies := []
  cacheDefaultSizeGB := 1
  issuedIDs := []

namespace Store

/-- `uuid.NewString`: the identifier it returns has not been returned before. -/
def newID (db : Store) (id : String) : Except StoreError Store := do
  require (id ∉ db.issuedIDs) .constraint
  return { db with issuedIDs := id :: db.issuedIDs }

theorem newID_eq_ok {db db' : Store} {id : String} :
    db.newID id = .ok db' ↔
      id ∉ db.issuedIDs ∧ db' = { db with issuedIDs := id :: db.issuedIDs } := by
  simp only [newID, bind_eq_ok, require_eq_ok, pure_eq_ok, exists_const]
  exact and_congr_right fun _ => eq_comm

end Store

end SimpleCdn
