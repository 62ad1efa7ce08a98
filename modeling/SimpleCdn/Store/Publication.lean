import Mathlib.Data.List.Sort
import SimpleCdn.Store.Tasks

/-!
# Publications and node states

`sitePublications` holds, for each published site, the snapshot of its draft and certificate that
the edges are meant to serve; `nodeStates` holds what each node is asked to run.
`CommitSitePublication` writes both in one transaction, after checking that the draft still has
the version the node states were rendered from.
-/

namespace SimpleCdn

structure NodeStateUpdate where
  nodeID : String
  state : DesiredState
  deriving DecidableEq, Repr

namespace Store

def sitePublication (db : Store) (siteID : String) : Option SitePublication :=
  db.sitePublications.find? siteID

/-- `ListSitePublications`: ordered by site ID. -/
def listSitePublications (db : Store) : List SitePublication :=
  db.sitePublications.rows.insertionSort fun p q => p.site.id ≤ q.site.id

/-! ### Legacy publications -/

/-- The `publish_site` task rows that make a site without a snapshot count as deployed. -/
def hasLegacyPublish (db : Store) (siteID : String) : Bool :=
  db.deploymentTasks.any fun task =>
    task.siteID = siteID && task.kind = .publishSite &&
      ((task.status = .succeeded || task.status = .partialSuccess) ||
        db.publishTaskNodes.any fun row => row.taskID = task.id)

/-- `PublicationMigrationRequired`. -/
def publicationMigrationRequired (db : Store) (siteID : String) : Bool :=
  (db.sites.find? siteID).isSome && (db.sitePublications.find? siteID).isNone &&
    db.hasLegacyPublish siteID

/-- `CheckPublicationMigrationSafety`; the excluded site is the one being published. -/
def checkPublicationMigrationSafety (db : Store) (excludedSiteID : String) :
    Except StoreError Unit :=
  match (db.sites.rows.insertionSort fun s t => s.name ≤ t.name).find? fun site =>
      site.id ≠ excludedSiteID && (db.sitePublications.find? site.id).isNone &&
        db.hasLegacyPublish site.id with
  | none => .ok ()
  | some site => .error (.message ("site " ++ site.name ++
      " has legacy deployed state without a published snapshot; publish it before rebuilding" ++
      " edge configuration"))

/-! ### Node states -/

def nodeState (db : Store) (nodeID : String) : Option DesiredState :=
  (db.nodeStates.find? nodeID).map NodeStateRow.state

def hasActiveNodeUpgrade (db : Store) (nodeID : String) : Bool :=
  db.nodeUpgradeTasks.any fun task => task.nodeID = nodeID && task.status.active

/-- `EnsureNodesNotUpgrading`. -/
def ensureNodesNotUpgrading (db : Store) : List String → Except StoreError Unit
  | [] => .ok ()
  | nodeID :: nodeIDs => do
    require (nodeID = "" ∨ db.hasActiveNodeUpgrade nodeID = false)
      (.wrapped ("node " ++ nodeID) .nodeUpgradeActive)
    db.ensureNodesNotUpgrading nodeIDs

def upgradedNodeIDs (updates : List NodeStateUpdate) (targets : List PublishTaskNode) :
    List String :=
  updates.map NodeStateUpdate.nodeID ++ targets.map PublishTaskNode.nodeID

/-- `saveNodeStatesTx`. -/
def saveNodeStates (now : Time) : List NodeStateUpdate → Store → Except StoreError Store
  | [], db => .ok db
  | update :: updates, db => do
    require (update.nodeID ≠ "") (.message "node state is missing a node ID")
    let _ ← orError (db.nodes.find? update.nodeID) .constraint
    saveNodeStates now updates
      { db with nodeStates := db.nodeStates.upsert ⟨update.nodeID, update.state, now⟩ }

/-! ### Committing a publication -/

/-- `saveSitePublicationTx`: the snapshot takes the certificate stored at this moment. -/
def saveSitePublication (db : Store) (site : Site) (publishedAt : Time) : Store :=
  let row := db.certificates.find? site.id
  { db with
    sitePublications := db.sitePublications.upsert
      { site := site
        certificateCiphertext := row.map CertificateRow.certificateCiphertext
        keyCiphertext := row.map CertificateRow.keyCiphertext
        certificateNotAfter := row.bind CertificateRow.notAfter
        publishedAt := publishedAt } }

/-- The site value that `CommitSitePublication` freezes. -/
def publishedSite (site : Site) (publishedAt : Time) : Site :=
  { site with published := true, updatedAt := publishedAt }

def commitSitePublication (db : Store) (siteID : String) (expectedConfigVersion : Nat)
    (publishTaskID : String) (updates : List NodeStateUpdate) (targets : List PublishTaskNode)
    (now : Time) : Except StoreError (Site × Store) := do
  let row ← db.getSite siteID
  require (row.deleting = false) .siteDeleting
  require (expectedConfigVersion = 0 ∨ row.configVersion = expectedConfigVersion) .siteChanged
  db.ensureNodesNotUpgrading (upgradedNodeIDs updates targets)
  let site := publishedSite row now
  let db ← createPublishTaskNodes publishTaskID targets db
  let db := db.saveSitePublication site now
  let db ← saveNodeStates now updates db
  let db ← db.replaceSiteDomainClaims site.id site.domains
  let db := { db with
    sites := db.sites.update (fun row => row.id = site.id && row.deleting = false)
      (fun row => { row with published := true, updatedAt := now }) }
  return (site, db)

/-! ### What a commit writes -/

section Written

variable {db db' : Store} {now : Time}

/-- Saving node states changes the table of node states only. -/
theorem saveNodeStates_eq_ok {updates : List NodeStateUpdate}
    (h : saveNodeStates now updates db = .ok db') :
    ∃ states, db' = { db with nodeStates := states } := by
  induction updates generalizing db with
  | nil =>
    obtain rfl : db = db' := by simpa [saveNodeStates] using h
    exact ⟨db.nodeStates, rfl⟩
  | cons update updates ih =>
    simp only [saveNodeStates, bind_eq_ok, require_eq_ok, orError_eq_ok, exists_const] at h
    obtain ⟨-, _, -, hrest⟩ := h
    obtain ⟨states, rfl⟩ := ih hrest
    exact ⟨states, rfl⟩

/-- The snapshot a commit stores: the row and the certificate of this moment. -/
def snapshot (db : Store) (row : Site) (now : Time) : SitePublication where
  site := publishedSite row now
  certificateCiphertext :=
    (db.certificates.find? row.id).map CertificateRow.certificateCiphertext
  keyCiphertext := (db.certificates.find? row.id).map CertificateRow.keyCiphertext
  certificateNotAfter := (db.certificates.find? row.id).bind CertificateRow.notAfter
  publishedAt := now

/-- A successful commit: what it checked, and the tables it wrote. -/
theorem commitSitePublication_eq_ok {siteID taskID : String} {expectedConfigVersion : Nat}
    {updates : List NodeStateUpdate} {targets : List PublishTaskNode} {site : Site}
    (h : db.commitSitePublication siteID expectedConfigVersion taskID updates targets now =
      .ok (site, db')) :
    ∃ row, db.sites.find? siteID = some row ∧ row.deleting = false ∧
      (expectedConfigVersion = 0 ∨ row.configVersion = expectedConfigVersion) ∧
      site = publishedSite row now ∧
      ∃ targetRows states claims,
        createPublishTaskNodes taskID targets db = .ok { db with publishTaskNodes := targetRows } ∧
        saveNodeStates now updates
            { db with
              publishTaskNodes := targetRows
              sitePublications := db.sitePublications.upsert (db.snapshot row now) } =
          .ok { db with
            publishTaskNodes := targetRows
            sitePublications := db.sitePublications.upsert (db.snapshot row now)
            nodeStates := states } ∧
        db' = { db with
          publishTaskNodes := targetRows
          sitePublications := db.sitePublications.upsert (db.snapshot row now)
          nodeStates := states
          siteDomains := claims
          sites := db.sites.update (fun row => row.id = siteID && row.deleting = false)
            (fun row => { row with published := true, updatedAt := now }) } := by
  simp only [commitSitePublication, bind_eq_ok, getSite_eq_ok, require_eq_ok, pure_eq_ok,
    exists_const, Prod.mk.injEq] at h
  obtain ⟨row, hfind, hdeleting, hversion, ⟨⟩, -, db₁, htargets, db₂, hstates, db₃, hclaims,
    rfl, rfl⟩ := h
  obtain ⟨targetRows, rfl, -⟩ := createPublishTaskNodes_eq_ok htargets
  obtain ⟨states, rfl⟩ := saveNodeStates_eq_ok hstates
  obtain ⟨claims, rfl⟩ := replaceSiteDomainClaims_eq_ok hclaims
  have hid : row.id = siteID := Table.key_of_find? hfind
  refine ⟨row, hfind, hdeleting, hversion, rfl, targetRows, states, claims, htargets, hstates, ?_⟩
  simp [saveSitePublication, snapshot, publishedSite, hid]

end Written

end Store

end SimpleCdn
