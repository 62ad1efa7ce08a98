import SimpleCdn.Deployment.System
import SimpleCdn.Store.Settling

/-!
# What an action does

Every action has one of nine effects on the tables that hold sites, publications, certificates,
nodes, node states and deletions, and on the history.  `Effect` lists them; the invariants of the
control plane are proved effect by effect, and only the lemmas here look at the operations.

A deletion is seen through `deletionOf`: the task and the phase of a site's deletion job.
-/

namespace SimpleCdn

/-- The task and the phase of the site's deletion. -/
def Store.deletionOf (db : Store) (siteID : String) : Option (String × SiteDeletionPhase) :=
  (db.siteDeletionJobs.find? siteID).map fun job => (job.taskID, job.phase)

namespace Deployment

/-- No task is lost, and none changes its kind or its site. -/
def TasksKept (db db' : Store) : Prop :=
  ∀ id task, db.deploymentTasks.find? id = some task →
    ∃ task', db'.deploymentTasks.find? id = some task' ∧ task'.kind = task.kind ∧
      task'.siteID = task.siteID

/-- What the effects on tasks, targets and settings leave alone. -/
structure SameTables (db db' : Store) : Prop where
  nodes : db'.nodes = db.nodes
  sites : db'.sites = db.sites
  publications : db'.sitePublications = db.sitePublications
  certificates : db'.certificates = db.certificates
  states : db'.nodeStates = db.nodeStates
  deletions : ∀ siteID, db'.deletionOf siteID = db.deletionOf siteID
  uninstalls : db'.nodeUninstallJobs = db.nodeUninstallJobs
  issued : db.issuedIDs ⊆ db'.issuedIDs
  tasks : TasksKept db db'

/-- An action that saves no node state, begins no deletion and creates no target. -/
structure SameHistory (s s' : State) : Prop where
  saved : s'.saved = s.saved
  passedOver : s'.passedOver = s.passedOver
  begun : s'.begun = s.begun
  leaving : s'.leaving = s.leaving
  commits : s'.commits = s.commits
  settles : Store.Settles [] s.store s'.store

/-- The publish task `taskID` is new, with these targets; one without targets has succeeded. -/
structure NewPublish (s s' : State) (taskID : String) (targets : List PublishTaskNode) : Prop where
  fresh : s.store.deploymentTasks.find? taskID = none
  settles : Store.Settles (Store.targetRows taskID targets) s.store s'.store
  task : ∃ task, s'.store.deploymentTasks.find? taskID = some task ∧ task.kind = .publishSite ∧
    (task.status = .succeeded → targets = [])

/-- The rows of `node_states` that a transaction has written. -/
def State.newRows (s : State) (db : Store) : List NodeStateRow :=
  db.nodeStates.rows.filter fun row => row ∉ s.store.nodeStates.rows

/-- A site is created, or its draft changes; with the latter its certificate may change. -/
structure SiteWritten (db db' : Store) (id : String) (row' : Site) : Prop where
  rowID : row'.id = id
  published : row'.published = false
  live : row'.deleting = false
  origin : (db.sites.find? id = none ∧ id ∉ db.issuedIDs ∧ id ∈ db'.issuedIDs) ∨
    ∃ row, db.sites.find? id = some row ∧ row.deleting = false
  assigned : (∃ row, db.sites.find? id = some row ∧ row'.nodes = row.nodes) ∨
    ∀ n ∈ row'.nodes, ∃ node, db.nodes.find? n = some node
  sites : ∀ k, db'.sites.find? k = if k = id then some row' else db.sites.find? k
  certificates : ∀ k, k ≠ id → db'.certificates.find? k = db.certificates.find? k
  nodes : db'.nodes = db.nodes
  publications : db'.sitePublications = db.sitePublications
  states : db'.nodeStates = db.nodeStates
  deletions : ∀ k, db'.deletionOf k = db.deletionOf k
  uninstalls : db'.nodeUninstallJobs = db.nodeUninstallJobs
  issued : db.issuedIDs ⊆ db'.issuedIDs
  tasks : TasksKept db db'

/-- An action renders node states and saves them. -/
structure Saves (r : Option RenderCall) (s s' : State) (call : RenderCall)
    (targets : List PublishTaskNode) : Prop where
  rendering : r = some call
  base : SameTables s.store call.db
  rebuilt : Rebuilt call targets s'.store.nodeStates
  saved : s'.saved = s.newRows s'.store ++ s.saved
  nodes : s'.store.nodes = s.store.nodes
  certificates : s'.store.certificates = s.store.certificates
  uninstalls : s'.store.nodeUninstallJobs = s.store.nodeUninstallJobs
  issued : s.store.issuedIDs ⊆ s'.store.issuedIDs
  tasks : TasksKept s.store s'.store

/-- A publication is committed. -/
structure Publishes (r : Option RenderCall) (s s' : State) (siteID : String) (row : Site)
    (now : Time) (call : RenderCall) (targets : List PublishTaskNode) : Prop
    extends Saves r s s' call targets where
  found : s.store.sites.find? siteID = some row
  live : row.deleting = false
  site : SiteCall call.db row false now call
  sites : ∀ k, s'.store.sites.find? k =
    if k = siteID then some (Store.publishedSite row now) else s.store.sites.find? k
  publications : ∀ k, s'.store.sitePublications.find? k =
    if k = siteID then some (s.store.snapshot row now) else s.store.sitePublications.find? k
  deletions : ∀ k, s'.store.deletionOf k = s.store.deletionOf k
  passedOver : s'.passedOver = call.passedOver ++ s.passedOver
  begun : s'.begun = s.begun
  leaving : s'.leaving = s.leaving
  committed : ∃ taskID, NewPublish s s' taskID targets ∧ s'.commits =
    ⟨taskID, s.store.snapshot row now, call.affected, call.passedOver⟩ :: s.commits

/-- `PublishAll` or `PublishNode` saves node states. -/
structure Rebuilds (r : Option RenderCall) (s s' : State) (call : RenderCall)
    (targets : List PublishTaskNode) : Prop extends Saves r s s' call targets where
  materials : call.materials = publicationMaterials s.store.listSitePublications
  sites : s'.store.sites = s.store.sites
  publications : s'.store.sitePublications = s.store.sitePublications
  deletions : ∀ k, s'.store.deletionOf k = s.store.deletionOf k
  passedOver : s'.passedOver = s.passedOver
  begun : s'.begun = s.begun
  leaving : s'.leaving = s.leaving
  commits : s'.commits = s.commits
  settles : Store.Settles [] s.store s'.store

/-- The removal of a site is staged. -/
structure Stages (r : Option RenderCall) (s s' : State) (siteID taskID : String) (row : Site)
    (now : Time) (call : RenderCall) (targets : List PublishTaskNode) : Prop
    extends Saves r s s' call targets where
  found : s.store.sites.find? siteID = some row
  site : SiteCall call.db row true now call
  phase : s.store.deletionOf siteID = some (taskID, .withdrawingDNS)
  sites : s'.store.sites = s.store.sites
  publications : s'.store.sitePublications = s.store.sitePublications
  deletions : ∀ k, s'.store.deletionOf k =
    if k = siteID then some (taskID, .waitingForEdges) else s.store.deletionOf k
  passedOver : s'.passedOver = call.passedOver ++ s.passedOver
  begun : s'.begun = s.begun
  leaving : s'.leaving = s.leaving
  commits : s'.commits = s.commits
  settles : Store.Settles (Store.targetRows taskID targets) s.store s'.store

/-- A deletion begins, or begins again. -/
structure Begins (s s' : State) (siteID taskID : String) (row : Site) : Prop where
  found : s.store.sites.find? siteID = some row
  fresh : s.store.deploymentTasks.find? taskID = none
  sites : ∃ now, ∀ k, s'.store.sites.find? k =
    if k = siteID then some { row with enabled := false, deleting := true, updatedAt := now }
    else s.store.sites.find? k
  deletions : ∀ k, s'.store.deletionOf k =
    if k = siteID then some (taskID, .withdrawingDNS) else s.store.deletionOf k
  task : ∃ task, s'.store.deploymentTasks.find? taskID = some task ∧ task.kind = .deleteSite ∧
    task.siteID = siteID
  nodes : s'.store.nodes = s.store.nodes
  publications : s'.store.sitePublications = s.store.sitePublications
  certificates : s'.store.certificates = s.store.certificates
  states : s'.store.nodeStates = s.store.nodeStates
  uninstalls : s'.store.nodeUninstallJobs = s.store.nodeUninstallJobs
  issued : s.store.issuedIDs ⊆ s'.store.issuedIDs
  tasks : TasksKept s.store s'.store
  saved : s'.saved = s.saved
  passedOver : s'.passedOver = s.passedOver
  begun : s'.begun = siteID :: s.begun
  leaving : s'.leaving = leavingNodes s.store siteID ++ s.leaving
  commits : s'.commits = s.commits
  settles : Store.Settles [] s.store s'.store

/-- Every edge has confirmed: the deletion enters its last phase. -/
structure Confirms (s s' : State) (siteID taskID : String) : Prop where
  phase : s.store.deletionOf siteID = some (taskID, .waitingForEdges)
  deletions : ∀ k, s'.store.deletionOf k =
    if k = siteID then some (taskID, .finalizing) else s.store.deletionOf k
  targets : ∀ row ∈ s'.store.publishTaskNodes, row.taskID = taskID → row.status = .succeeded
  nodes : s'.store.nodes = s.store.nodes
  sites : s'.store.sites = s.store.sites
  publications : s'.store.sitePublications = s.store.sitePublications
  certificates : s'.store.certificates = s.store.certificates
  states : s'.store.nodeStates = s.store.nodeStates
  uninstalls : s'.store.nodeUninstallJobs = s.store.nodeUninstallJobs
  issued : s.store.issuedIDs ⊆ s'.store.issuedIDs
  tasks : TasksKept s.store s'.store

/-- The row of a site is removed. -/
structure Removes (s s' : State) (siteID taskID : String) : Prop where
  phase : s.store.deletionOf siteID = some (taskID, .finalizing)
  sites : ∀ k, s'.store.sites.find? k = if k = siteID then none else s.store.sites.find? k
  publications : ∀ k, s'.store.sitePublications.find? k =
    if k = siteID then none else s.store.sitePublications.find? k
  certificates : ∀ k, s'.store.certificates.find? k =
    if k = siteID then none else s.store.certificates.find? k
  deletions : ∀ k, s'.store.deletionOf k =
    if k = siteID then none else s.store.deletionOf k
  nodes : s'.store.nodes = s.store.nodes
  states : s'.store.nodeStates = s.store.nodeStates
  uninstalls : s'.store.nodeUninstallJobs = s.store.nodeUninstallJobs
  issued : s.store.issuedIDs ⊆ s'.store.issuedIDs
  tasks : TasksKept s.store s'.store

/-- The effect of an action that renders `r`. -/
inductive Effect (r : Option RenderCall) (s s' : State) : Prop
  | tables (tables : SameTables s.store s'.store) (history : SameHistory s s')
  | site (id : String) (row' : Site) (written : SiteWritten s.store s'.store id row')
      (history : SameHistory s s')
  | publish (siteID : String) (row : Site) (now : Time) (call : RenderCall)
      (targets : List PublishTaskNode) (publishes : Publishes r s s' siteID row now call targets)
  | rebuild (call : RenderCall) (targets : List PublishTaskNode)
      (rebuilds : Rebuilds r s s' call targets)
  | begin (siteID taskID : String) (row : Site) (begins : Begins s s' siteID taskID row)
  | stage (siteID taskID : String) (row : Site) (now : Time) (call : RenderCall)
      (targets : List PublishTaskNode)
      (stages : Stages r s s' siteID taskID row now call targets)
  | confirm (siteID taskID : String) (confirms : Confirms s s' siteID taskID)
      (history : SameHistory s s')
  | remove (siteID taskID : String) (removes : Removes s s' siteID taskID)
      (history : SameHistory s s')
  | node (effect : Store.NodeEffect s.store s'.store) (history : SameHistory s s')

end Deployment

end SimpleCdn
