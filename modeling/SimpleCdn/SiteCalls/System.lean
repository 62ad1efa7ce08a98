import SimpleCdn.Control.Publisher
import SimpleCdn.Lib.Transition

/-!
# Concurrent calls on sites

The database serialises transactions, but an operation that reads outside its transaction can be
overtaken between the read and the write.  Here every call that does so is in flight between
them: `updateRead` and `updateCommit` are the two halves of `UpdateSite`, `invalidateRead` and
`invalidateCommit` those of `InvalidateSiteCache`, and a `PublishSite` call reads the site,
creates its task, reads the site again, reads the certificate, renders and commits, one step at
a time.  The other operations on the `sites` table are single transactions, and everything that
leaves sites, domain claims, certificates and publications alone (node administration,
heartbeats, uninstalls, upgrades, policies, task bookkeeping, rebuilding node states) is one
action that may write the other tables in any way.

Actions name a call in flight by its position.  An action that is not enabled changes nothing,
and a call whose step fails is over; a failing publish marks its task as failed.
-/

namespace SimpleCdn.SiteCalls

/-- An `UpdateSite` call between its read and its transaction. -/
structure UpdateCall where
  current : Site
  draft : SiteDraft
  deriving DecidableEq

/-- How far a `PublishSite` call has come. -/
inductive PublishStage
  /-- `PublishSite` has read the site. -/
  | read
  /-- It has created its task. -/
  | created (taskID : String)
  /-- `prepareNodeStates` has read the site and the publications. -/
  | targetRead (taskID : String) (target : Site) (migrationRequired : Bool)
      (publications : List SitePublication)
  /-- It has read the certificate. -/
  | drafted (taskID : String) (target : Site) (migrationRequired : Bool)
      (publications : List SitePublication) (draft : PublicationMaterial)
  /-- It has rendered the node states from `draft`. -/
  | rendered (taskID : String) (draft : PublicationMaterial) (updates : List NodeStateUpdate)
      (targets : List PublishTaskNode)

structure PublishCall where
  site : Site
  stage : PublishStage

structure Calls where
  store : Store
  updates : List UpdateCall
  invalidations : List String
  publishes : List PublishCall

/-- The tables that the other operations of the control plane write. -/
structure OtherTables where
  nodes : Table Node
  nodeStates : Table NodeStateRow
  deploymentTasks : Table DeploymentTask
  publishTaskNodes : Table PublishTaskNodeRow
  siteDeletionJobs : Table SiteDeletionJob
  nodeUninstallJobs : Table NodeUninstallJob
  nodeUpgradeTasks : Table NodeUpgradeTask
  enrollmentTokens : Table EnrollmentToken
  securityPolicies : List SecurityPolicy
  rateLimitPolicies : List RateLimitPolicy
  cacheDefaultSizeGB : Int
  issuedIDs : List String

inductive Action
  | createSite (id : String) (draft : SiteDraft) (zoneID : String) (now : Time)
  | updateRead (id : String) (draft : SiteDraft) (zoneID : String)
  | updateCommit (i : Nat) (now : Time)
  | invalidateRead (id : String)
  | invalidateCommit (i : Nat) (now : Time)
  | storeCertificate (siteID : String) (certificate : Certificate) (privateKey : PrivateKey)
      (now : Time)
  | publishRead (siteID : String)
  | publishStep (i : Nat) (taskID : String) (now : Time)
  | reconcilePublishTasks (now : Time)
  | beginSiteDeletion (siteID taskID actor remoteAddr : String) (deadline now : Time)
  | completeSiteDeletion (taskID : String) (now : Time)
  | otherTables (tables : OtherTables)

def initial : Calls where
  store := Store.empty
  updates := []
  invalidations := []
  publishes := []

/-- A transaction runs, or is rolled back. -/
def Calls.commit (s : Calls) (result : Except StoreError Store) : Calls :=
  match result with
  | .ok db => { s with store := db }
  | .error _ => s

/-- Every table but the four that hold the sites. -/
def Calls.setOtherTables (s : Calls) (tables : OtherTables) : Calls :=
  { s with
    store := {
      s.store with
      nodes := tables.nodes
      nodeStates := tables.nodeStates
      deploymentTasks := tables.deploymentTasks
      publishTaskNodes := tables.publishTaskNodes
      siteDeletionJobs := tables.siteDeletionJobs
      nodeUninstallJobs := tables.nodeUninstallJobs
      nodeUpgradeTasks := tables.nodeUpgradeTasks
      enrollmentTokens := tables.enrollmentTokens
      securityPolicies := tables.securityPolicies
      rateLimitPolicies := tables.rateLimitPolicies
      cacheDefaultSizeGB := tables.cacheDefaultSizeGB
      issuedIDs := tables.issuedIDs ++ s.store.issuedIDs } }

/-! ### The steps of a publish call -/

/-- The call `i` has reached the next stage. -/
def Calls.setStage (s : Calls) (i : Nat) (call : PublishCall) (stage : PublishStage) : Calls :=
  { s with publishes := s.publishes.set i { call with stage := stage } }

/-- The call `i` has ended. -/
def Calls.endPublish (s : Calls) (i : Nat) (db : Store) : Calls :=
  { s with store := db, publishes := s.publishes.eraseIdx i }

/-- `CreateOrGetActivePublishTask` and the two status updates. -/
def Calls.createTask (s : Calls) (i : Nat) (call : PublishCall) (taskID : String) (now : Time) :
    Calls :=
  if call.site.deleting then s.endPublish i s.store
  else match s.store.createOrGetActivePublishTask call.site.id taskID (now + publishTimeout) now with
    | .error _ => s.endPublish i s.store
    | .ok (_, false, db) => s.endPublish i db
    | .ok (task, true, db) =>
      let db := db.setTask task.id .dispatching "building node configurations" now
      let db := db.setTask task.id .applying "preparing edge configuration confirmation" now
      { s with store := db }.setStage i call (.created task.id)

/-- The checks and reads of `prepareNodeStates` up to the list of publications. -/
def readTarget (db : Store) (siteID : String) :
    Except StoreError (Site × Bool × List SitePublication) := do
  db.checkPublicationMigrationSafety siteID
  let target ← db.getSite siteID
  require (target.deleting = false) .siteDeleting
  return (target, db.publicationMigrationRequired siteID, db.listSitePublications)

/-- Render the node states from what the call has read. -/
def renderDraft (db : Store) (target : Site) (migrationRequired : Bool)
    (publications : List SitePublication) (draft : PublicationMaterial) (now : Time) :
    Except StoreError (List NodeStateUpdate × List PublishTaskNode) :=
  renderNodeStateUpdates db (prepareMaterials publications target.id (some draft))
    (prepareAffected publications target migrationRequired db.listNodes) now

/-- The next step of the publish call `i`. -/
def Calls.publishStep (s : Calls) (i : Nat) (call : PublishCall) (newTaskID : String)
    (now : Time) : Calls :=
  match call.stage with
  | .read => s.createTask i call newTaskID now
  | .created taskID =>
    match readTarget s.store call.site.id with
    | .error error => s.endPublish i (s.store.setTask taskID .failed error.text now)
    | .ok (target, migrationRequired, publications) =>
      s.setStage i call (.targetRead taskID target migrationRequired publications)
  | .targetRead taskID target migrationRequired publications =>
    match draftMaterial target (s.store.certificate call.site.id) with
    | .error error => s.endPublish i (s.store.setTask taskID .failed error.text now)
    | .ok draft =>
      s.setStage i call (.drafted taskID target migrationRequired publications draft)
  | .drafted taskID target migrationRequired publications draft =>
    match renderDraft s.store target migrationRequired publications draft now with
    | .error error => s.endPublish i (s.store.setTask taskID .failed error.text now)
    | .ok (updates, targets) => s.setStage i call (.rendered taskID draft updates targets)
  | .rendered taskID _ updates targets =>
    match s.store.commitSitePublication call.site.id call.site.configVersion taskID updates
        targets now with
    | .error error => s.endPublish i (s.store.setTask taskID .failed error.text now)
    | .ok (_, db) => s.endPublish i (finishPublish db taskID targets now)

/-! ### All actions -/

def step (s : Calls) : Action → Calls
  | .createSite id draft zoneID now => s.commit ((s.store.createSite id draft zoneID now).map Prod.snd)
  | .updateRead id draft zoneID =>
    match s.store.updateSiteCheck id zoneID with
    | .ok current => { s with updates := ⟨current, draft⟩ :: s.updates }
    | .error _ => s
  | .updateCommit i now =>
    match s.updates[i]? with
    | some call =>
      { s with updates := s.updates.eraseIdx i }.commit
        (s.store.updateSiteCommit (Store.updatedSite call.current call.draft now))
    | none => s
  | .invalidateRead id =>
    match s.store.invalidateSiteCacheCheck id with
    | .ok () => { s with invalidations := id :: s.invalidations }
    | .error _ => s
  | .invalidateCommit i now =>
    match s.invalidations[i]? with
    | some id =>
      { s with invalidations := s.invalidations.eraseIdx i }.commit
        (s.store.invalidateSiteCacheCommit id now)
    | none => s
  | .storeCertificate siteID certificate privateKey now =>
    s.commit (SimpleCdn.storeCertificate s.store siteID certificate privateKey now)
  | .publishRead siteID =>
    match s.store.getSite siteID with
    | .ok site => { s with publishes := ⟨site, .read⟩ :: s.publishes }
    | .error _ => s
  | .publishStep i taskID now =>
    match s.publishes[i]? with
    | some call => s.publishStep i call taskID now
    | none => s
  | .reconcilePublishTasks now => { s with store := s.store.reconcilePublishTasks now }
  | .beginSiteDeletion siteID taskID actor remoteAddr deadline now =>
    s.commit ((s.store.beginSiteDeletion siteID taskID actor remoteAddr deadline now).map
      fun result => result.2.2)
  | .completeSiteDeletion taskID now => s.commit (s.store.completeSiteDeletion taskID now)
  | .otherTables tables => s.setOtherTables tables

end SimpleCdn.SiteCalls
