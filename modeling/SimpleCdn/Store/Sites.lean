import SimpleCdn.Store.Schema

/-!
# Site drafts

The operations on the `sites` table that change the draft: creating a site, editing it,
invalidating its cache and storing a certificate.

`UpdateSite` and `InvalidateSiteCache` read the row before their transaction begins.  Each is
split there: `updateSiteCheck` and `invalidateSiteCacheCheck` are the reads with their guards,
`updateSiteCommit` and `invalidateSiteCacheCommit` the transactions, and the whole operation is
one after the other.  A commit uses only what its check returned, so another writer may run in
between.

`SiteDraft` holds the fields a site request sets, normalised; `SiteDraft.site` gives every other
field of the record its zero value, in particular `deleting`.
-/

namespace SimpleCdn

/-- `status IN ('revoked', 'uninstalling', 'uninstalled')`. -/
def NodeStatus.retired : NodeStatus → Bool
  | revoked | uninstalling | uninstalled => true
  | _ => false

structure SiteDraft where
  name : String
  domains : List String
  nodes : List String
  primaryOrigin : Origin
  backupOrigin : Option Origin
  passthrough : Bool
  clientMaxBodySizeMB : Int
  clientKeepaliveTimeoutSeconds : Int
  readWriteTimeoutSeconds : Int
  dnsTTLSeconds : Option Int
  tcpOnly : Bool
  tcpForwards : List TCPForward
  enabled : Bool
  deriving DecidableEq, Repr

def SiteDraft.site (draft : SiteDraft) (id : String) : Site where
  id := id
  name := draft.name
  zoneID := ""
  domains := draft.domains
  nodes := draft.nodes
  primaryOrigin := draft.primaryOrigin
  backupOrigin := draft.backupOrigin
  streamPaths := []
  passthrough := draft.passthrough
  clientMaxBodySizeMB := draft.clientMaxBodySizeMB
  clientKeepaliveTimeoutSeconds := draft.clientKeepaliveTimeoutSeconds
  readWriteTimeoutSeconds := draft.readWriteTimeoutSeconds
  dnsTTLSeconds := draft.dnsTTLSeconds
  tcpOnly := draft.tcpOnly
  tcpForwards := draft.tcpForwards
  cacheGeneration := 0
  configVersion := 0
  published := false
  enabled := draft.enabled
  deleting := false
  createdAt := 0
  updatedAt := 0

namespace Store

def getSite (db : Store) (id : String) : Except StoreError Site :=
  orError (db.sites.find? id) .notFound

def hasActiveNodeUninstall (db : Store) (nodeID : String) : Bool :=
  db.nodeUninstallJobs.any fun job => job.nodeID = nodeID && job.status.blocksStatus

def validateSiteNodes (db : Store) : List String → Except StoreError Unit
  | [] => .ok ()
  | nodeID :: nodeIDs => do
    let node ← orError (db.nodes.find? nodeID) (.wrapped ("site node " ++ nodeID) .notFound)
    require (node.status.retired = false)
      (.message ("site node " ++ node.name ++ " is revoked, uninstalling, or uninstalled"))
    require (db.hasActiveNodeUninstall nodeID = false)
      (.wrapped ("site node " ++ node.name) .uninstallActive)
    db.validateSiteNodes nodeIDs

/-! ### Domain claims -/

/-- `claimDomains`: one row per distinct domain; the site must exist and own none of them yet. -/
def claimDomains (siteID : String) : List String → List String → Store → Except StoreError Store
  | [], _, db => .ok db
  | domainName :: rest, claimed, db =>
    if domainName ∈ claimed then claimDomains siteID rest claimed db
    else do
      let _ ← orError (db.sites.find? siteID)
        (.wrapped ("domain " ++ domainName ++ " is already assigned to another site") .constraint)
      let claims ← orError (db.siteDomains.insert? ⟨domainName, siteID⟩)
        (.wrapped ("domain " ++ domainName ++ " is already assigned to another site") .constraint)
      claimDomains siteID rest (domainName :: claimed) { db with siteDomains := claims }

def replaceSiteDomainClaims (db : Store) (siteID : String) (domains : List String) :
    Except StoreError Store :=
  claimDomains siteID domains []
    { db with siteDomains := db.siteDomains.delete fun claim => claim.siteID = siteID }

def publishedSiteDomains (db : Store) (siteID : String) : List String :=
  match db.sitePublications.find? siteID with
  | some publication => publication.site.domains
  | none => []

/-- Claiming domains changes the table of claims only. -/
theorem claimDomains_eq_ok {siteID : String} {domains claimed : List String} {db db' : Store}
    (h : claimDomains siteID domains claimed db = .ok db') :
    ∃ claims, db' = { db with siteDomains := claims } := by
  induction domains generalizing claimed db with
  | nil =>
    obtain rfl : db = db' := by simpa [claimDomains] using h
    exact ⟨db.siteDomains, rfl⟩
  | cons domainName rest ih =>
    unfold claimDomains at h
    split at h
    · exact ih h
    · simp only [bind_eq_ok, orError_eq_ok] at h
      obtain ⟨_, -, claims, -, hrest⟩ := h
      obtain ⟨claims', rfl⟩ := ih hrest
      exact ⟨claims', rfl⟩

theorem replaceSiteDomainClaims_eq_ok {db db' : Store} {siteID : String} {domains : List String}
    (h : db.replaceSiteDomainClaims siteID domains = .ok db') :
    ∃ claims, db' = { db with siteDomains := claims } := by
  obtain ⟨claims, rfl⟩ := claimDomains_eq_ok h
  exact ⟨claims, rfl⟩

/-! ### Creating a site -/

def createSite (db : Store) (id : String) (draft : SiteDraft) (zoneID : String) (now : Time) :
    Except StoreError (Site × Store) := do
  require (zoneID ≠ "") (.message "Cloudflare zone ID is required")
  let db ← db.newID id
  let site : Site :=
    { draft.site id with
      zoneID := zoneID, cacheGeneration := 1, configVersion := 1, createdAt := now,
      updatedAt := now }
  db.validateSiteNodes site.nodes
  require (db.sites.any (fun other => other.name = site.name) = false) .constraint
  let sites ← orError (db.sites.insert? site) .constraint
  let db ← claimDomains site.id site.domains [] { db with sites := sites }
  return (site, db)

/-! ### Editing a site -/

/-- The part of `UpdateSite` that runs before its transaction: read the row and check it. -/
def updateSiteCheck (db : Store) (id zoneID : String) : Except StoreError Site := do
  let current ← db.getSite id
  require (current.deleting = false) .siteDeleting
  require (zoneID ≠ "") (.message "Cloudflare zone ID is required")
  require (zoneID = current.zoneID) (.message
    "Cloudflare zone ID cannot be changed after site creation; create a new site instead")
  return current

/-- The row `UpdateSite` is going to write, computed from the row its check has read. -/
def updatedSite (current : Site) (draft : SiteDraft) (now : Time) : Site :=
  { draft.site current.id with
    zoneID := current.zoneID
    cacheGeneration :=
      if draft.passthrough ≠ current.passthrough then current.cacheGeneration + 1
      else current.cacheGeneration
    configVersion := current.configVersion + 1
    published := false
    createdAt := current.createdAt
    updatedAt := now }

/-- The transaction of `UpdateSite`.  The statement sets every column but `created_at`. -/
def updateSiteCommit (db : Store) (site : Site) : Except StoreError Store := do
  db.validateSiteNodes site.nodes
  let db ← db.replaceSiteDomainClaims site.id (site.domains ++ db.publishedSiteDomains site.id)
  require (db.sites.any (fun other => other.id ≠ site.id && other.name = site.name) = false)
    .constraint
  return { db with
    sites := db.sites.update (fun row => row.id = site.id)
      (fun row => { site with id := row.id, createdAt := row.createdAt }) }

def updateSite (db : Store) (id : String) (draft : SiteDraft) (zoneID : String) (now : Time) :
    Except StoreError (Site × Store) := do
  let current ← db.updateSiteCheck id zoneID
  let site := updatedSite current draft now
  let db ← db.updateSiteCommit site
  return (site, db)

/-! ### Invalidating the cache -/

/-- The part of `InvalidateSiteCache` that runs before its statement. -/
def invalidateSiteCacheCheck (db : Store) (id : String) : Except StoreError Unit := do
  let site ← db.getSite id
  require (site.deleting = false) .siteDeleting
  require ((site.passthrough || site.tcpOnly) = false) .cacheDisabled

def invalidateSiteCacheCommit (db : Store) (id : String) (now : Time) :
    Except StoreError Store := do
  let _ ← orError (db.sites.find? id) .notFound
  return { db with
    sites := db.sites.update (fun row => row.id = id) (fun row =>
      { row with
        cacheGeneration := row.cacheGeneration + 1, configVersion := row.configVersion + 1,
        published := false, updatedAt := now }) }

def invalidateSiteCache (db : Store) (id : String) (now : Time) :
    Except StoreError (Site × Store) := do
  db.invalidateSiteCacheCheck id
  let db ← db.invalidateSiteCacheCommit id now
  let site ← db.getSite id
  return (site, db)

/-! ### Storing a certificate -/

def saveCertificate (db : Store) (siteID : String) (certificate : Sealed Certificate)
    (privateKey : Sealed PrivateKey) (notAfter : Option Time) (now : Time) :
    Except StoreError Store := do
  let site ← orError (db.sites.find? siteID) .notFound
  require (site.deleting = false) .siteDeleting
  return { db with
    sites := db.sites.update (fun row => row.id = siteID && row.deleting = false) (fun row =>
      { row with configVersion := row.configVersion + 1, published := false, updatedAt := now })
    certificates := db.certificates.upsert ⟨siteID, certificate, privateKey, notAfter, now⟩ }

def certificate (db : Store) (siteID : String) : Option CertificateRow :=
  db.certificates.find? siteID

/-! ### What each transaction writes

Every operation that succeeded is taken apart once, here; the proofs about a run use these
lemmas and never unfold an operation. -/

section Written

variable {db db' : Store} {id siteID zoneID : String} {draft : SiteDraft} {now : Time}

/-- Updating the row of one site. -/
theorem find?_updateSite {f : Site → Site} {hf : ∀ row, key (f row) = key row} (k : String) :
    (db.sites.update (fun row => row.id = k) f hf).find? id =
      if id = k then (db.sites.find? id).map f else db.sites.find? id := by
  have h := Table.find?_update_key (T := db.sites) (p := fun _ => true) hf k id
  simpa using h

/-- Updating the row of one site unless it is being deleted. -/
theorem find?_updateLiveSite {f : Site → Site} {hf : ∀ row, key (f row) = key row} (k : String) :
    (db.sites.update (fun row => row.id = k && row.deleting = false) f hf).find? id =
      if id = k then (db.sites.find? id).map fun row => if row.deleting = false then f row else row
      else db.sites.find? id := by
  have h := Table.find?_update_key (T := db.sites) (p := fun row => row.deleting = false) hf k
    id
  simpa using h

theorem getSite_eq_ok {site : Site} : db.getSite id = .ok site ↔ db.sites.find? id = some site := by
  simp [getSite]

/-- Every node of the list exists and is in service. -/
theorem validateSiteNodes_eq_ok {nodeIDs : List String} {u : Unit}
    (h : db.validateSiteNodes nodeIDs = .ok u) :
    ∀ n ∈ nodeIDs, ∃ node, db.nodes.find? n = some node ∧ node.status.retired = false := by
  induction nodeIDs with
  | nil => simp
  | cons nodeID nodeIDs ih =>
    simp only [validateSiteNodes, bind_eq_ok, orError_eq_ok, require_eq_ok, exists_const] at h
    obtain ⟨node, hnode, hretired, -, hrest⟩ := h
    intro n hn
    rcases List.mem_cons.mp hn with rfl | hn
    · exact ⟨node, hnode, hretired⟩
    · exact ih hrest n hn

theorem createSite_eq_ok {site : Site} (h : db.createSite id draft zoneID now = .ok (site, db')) :
    id ∉ db.issuedIDs ∧
      site = { draft.site id with
        zoneID := zoneID, cacheGeneration := 1, configVersion := 1, createdAt := now,
        updatedAt := now } ∧
      (∀ n ∈ site.nodes, ∃ node, db.nodes.find? n = some node ∧ node.status.retired = false) ∧
      ∃ sites claims, db.sites.insert? site = some sites ∧
        db' = { db with
          issuedIDs := id :: db.issuedIDs, sites := sites, siteDomains := claims } := by
  simp only [createSite, bind_eq_ok, require_eq_ok, orError_eq_ok, pure_eq_ok, exists_const,
    Prod.mk.injEq] at h
  obtain ⟨-, db₁, hnew, ⟨⟩, hnodes, -, sites, hinsert, db₂, hclaims, rfl, rfl⟩ := h
  obtain ⟨hfresh, rfl⟩ := newID_eq_ok.mp hnew
  obtain ⟨claims, rfl⟩ := claimDomains_eq_ok hclaims
  have hexist := validateSiteNodes_eq_ok hnodes
  exact ⟨hfresh, rfl, hexist, sites, claims, hinsert, rfl⟩

theorem updateSiteCheck_eq_ok {current : Site} :
    db.updateSiteCheck id zoneID = .ok current ↔
      db.sites.find? id = some current ∧ current.deleting = false ∧ zoneID ≠ "" ∧
        zoneID = current.zoneID := by
  simp only [updateSiteCheck, bind_eq_ok, getSite_eq_ok, require_eq_ok, pure_eq_ok, exists_const]
  constructor
  · rintro ⟨site, hfind, hdeleting, hzone, heq, rfl⟩
    exact ⟨hfind, hdeleting, hzone, heq⟩
  · rintro ⟨hfind, hdeleting, hzone, heq⟩
    exact ⟨current, hfind, hdeleting, hzone, heq, rfl⟩

theorem updateSiteCommit_eq_ok {site : Site} (h : db.updateSiteCommit site = .ok db') :
    db.validateSiteNodes site.nodes = .ok () ∧
    ∃ claims, db' = { db with
      siteDomains := claims
      sites := db.sites.update (fun row => row.id = site.id)
        (fun row => { site with id := row.id, createdAt := row.createdAt }) } := by
  simp only [updateSiteCommit, bind_eq_ok, require_eq_ok, pure_eq_ok, exists_const] at h
  obtain ⟨⟨⟩, hnodes, db₁, hclaims, -, rfl⟩ := h
  obtain ⟨claims, rfl⟩ := replaceSiteDomainClaims_eq_ok hclaims
  exact ⟨hnodes, claims, rfl⟩

theorem invalidateSiteCacheCommit_eq_ok (h : db.invalidateSiteCacheCommit id now = .ok db') :
    (∃ site, db.sites.find? id = some site) ∧
    db' = { db with
      sites := db.sites.update (fun row => row.id = id) (fun row =>
        { row with
          cacheGeneration := row.cacheGeneration + 1, configVersion := row.configVersion + 1,
          published := false, updatedAt := now }) } := by
  simp only [invalidateSiteCacheCommit, bind_eq_ok, orError_eq_ok, pure_eq_ok] at h
  obtain ⟨site, hfind, rfl⟩ := h
  exact ⟨⟨site, hfind⟩, rfl⟩

theorem saveCertificate_eq_ok {certificate : Sealed Certificate} {privateKey : Sealed PrivateKey}
    {notAfter : Option Time}
    (h : db.saveCertificate siteID certificate privateKey notAfter now = .ok db') :
    (∃ site, db.sites.find? siteID = some site ∧ site.deleting = false) ∧
    db' = { db with
      sites := db.sites.update (fun row => row.id = siteID && row.deleting = false) (fun row =>
        { row with configVersion := row.configVersion + 1, published := false, updatedAt := now })
      certificates := db.certificates.upsert ⟨siteID, certificate, privateKey, notAfter, now⟩ } := by
  simp only [saveCertificate, bind_eq_ok, orError_eq_ok, require_eq_ok, pure_eq_ok,
    exists_const] at h
  obtain ⟨site, hfind, hdeleting, rfl⟩ := h
  exact ⟨⟨site, hfind, hdeleting⟩, rfl⟩

end Written

end Store

end SimpleCdn
