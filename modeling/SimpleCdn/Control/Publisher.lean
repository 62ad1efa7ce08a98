import Mathlib.Algebra.Group.Int.Defs
import SimpleCdn.Nginx.Render
import SimpleCdn.Store.SiteDeletion

/-!
# The publisher

`Publisher` turns publications into node states.  `publicationMaterials` and `prepareMaterials`
choose what is handed to the renderer, `renderNodeStateUpdates` renders every affected node and
keeps the states whose content changed, and the four entry points save them: `publishSite`
together with a new snapshot of its site, `publishAll` and `publishNode` on their own, and
`stageSiteRemoval` together with the targets of a deletion.

A process-wide mutex makes each entry point one step with respect to the others.
-/

namespace SimpleCdn

/-- `err.Error()`. -/
def StoreError.text : StoreError → String
  | notFound => "not found"
  | siteDeleting => "site deletion is in progress"
  | siteChanged => "site changed while publication was being prepared; retry publish"
  | siteTaskActive => "site has an active publish or certificate task"
  | cacheDisabled => "site cache is disabled for passthrough or TCP-only sites"
  | uninstallActive => "node has an active uninstall workflow"
  | uninstallNotActive => "node does not have an active uninstall workflow"
  | nodeUpgradeActive => "node has an active online upgrade"
  | upgradeRetryNotReady => "edge has not confirmed that the previous local upgrade stopped"
  | nodeOperationActive => "node has an active publish, deletion, or uninstall operation"
  | nodeAssigned => "node is still assigned to a site"
  | tokenInvalid => "enrollment token is invalid or expired"
  | constraint => "constraint failed"
  | message text => text
  | wrapped context inner => context ++ ": " ++ inner.text

/-! ### Certificates -/

/-- One label of a host name against one of a certificate name; only the first may be `*`. -/
def matchHostname : List String → List String → Bool
  | "*" :: pattern, _ :: host => pattern = host
  | pattern, host => pattern = host

/-- The labels of a name. -/
def hostLabels (name : String) : List String :=
  (name.toList.splitOn '.').map String.ofList

/-- `Certificate.VerifyHostname`, of a lower-case host name. -/
def verifyHostname (certificate : Certificate) (domainName : String) : Bool :=
  certificate.dnsNames.any fun name => matchHostname (hostLabels name) (hostLabels domainName)

def validateCertificateDomains (certificate : Certificate) (domains : List String) (now : Time) :
    Except String Unit := do
  require (now < certificate.notAfter) "expired"
  match domains.find? fun domainName => !verifyHostname certificate domainName with
  | some domainName => .error ("does not cover " ++ domainName)
  | none => .ok ()

def validateCertificatePrivateKey (certificate : Certificate) (privateKey : PrivateKey) :
    Except String Unit :=
  require (certificate.publicKey = privateKey.publicKey)
    "tls: private key does not match public key"

/-! ### Materials -/

structure PublicationMaterial where
  site : Site
  certificateCiphertext : Option (Sealed Certificate)
  keyCiphertext : Option (Sealed PrivateKey)
  deriving DecidableEq, Repr

structure RenderedPublication where
  site : Site
  bundle : Option TLSBundle
  deriving DecidableEq, Repr

def SitePublication.material (publication : SitePublication) : PublicationMaterial :=
  ⟨publication.site, publication.certificateCiphertext, publication.keyCiphertext⟩

/-- What `PublishAll` and `PublishNode` hand to the renderer. -/
def publicationMaterials (publications : List SitePublication) : List PublicationMaterial :=
  (publications.filter fun publication => !publication.site.deleting).map SitePublication.material

def siteTouchesNodes (site : Site) (nodeIDs : List String) : Bool :=
  site.nodes.any fun nodeID => nodeIDs.contains nodeID

/-- The certificate and key of a site that needs them, decrypted and checked. -/
def materialBundle (material : PublicationMaterial) (now : Time) :
    Except StoreError (Option TLSBundle) :=
  if !material.site.enabled || !material.site.needsCertificate then .ok none
  else match material.certificateCiphertext, material.keyCiphertext with
    | some certificateCiphertext, some keyCiphertext => do
      let certificate := decrypt certificateCiphertext
      (validateCertificateDomains certificate material.site.domains now).mapError
        fun text => .message ("site " ++ material.site.name ++ " certificate: " ++ text)
      let privateKey := decrypt keyCiphertext
      (validateCertificatePrivateKey certificate privateKey).mapError
        fun text => .message ("site " ++ material.site.name ++ " certificate private key: " ++ text)
      return some ⟨certificate, privateKey⟩
    | _, _ => .error (.message ("site " ++ material.site.name ++
        " needs a certificate before its node configuration can be rebuilt"))

/-- `decryptPublicationMaterials`: the materials of sites on an affected node. -/
def decryptPublicationMaterials (affected : List String) (now : Time) :
    List PublicationMaterial → Except StoreError (List RenderedPublication)
  | [] => .ok []
  | material :: materials =>
    if siteTouchesNodes material.site affected then do
      let bundle ← materialBundle material now
      let rest ← decryptPublicationMaterials affected now materials
      return ⟨material.site, bundle⟩ :: rest
    else decryptPublicationMaterials affected now materials

/-! ### One node -/

/-- `isTCPOnlyState`: the stored configuration has no HTTP listener. -/
def isTCPOnlyState (state : DesiredState) : Bool :=
  !state.nginxConfig.base.defaultHTTP && state.nginxConfig.sites.isEmpty &&
    state.publicPorts.all fun port => port ≠ 80 && port ≠ 443

/-- `domain.Site{TCPOnly: true}`, which keeps a node without sites from opening port 80. -/
def placeholderSite : Site :=
  { (⟨"", [], [], ⟨"", "", "", false⟩, none, false, 0, 0, 0, none, true, [], false⟩ :
      SiteDraft).site "" with zoneID := "" }

def siteHasNode (site : Site) (nodeID : String) : Bool :=
  site.nodes.contains nodeID

def assignedPublications (rendered : List RenderedPublication) (nodeID : String) :
    List RenderedPublication :=
  rendered.filter fun publication => siteHasNode publication.site nodeID

/-- The sites rendered for a node whose stored state is `previous`. -/
def nodeSites (rendered : List RenderedPublication) (nodeID : String)
    (previous : Option DesiredState) : List Site :=
  match assignedPublications rendered nodeID with
  | [] => if previous.any isTCPOnlyState then [placeholderSite] else []
  | assigned => assigned.map RenderedPublication.site

def nodeCertificates (rendered : List RenderedPublication) (nodeID : String) :
    List (String × TLSBundle) :=
  (assignedPublications rendered nodeID).filterMap fun publication =>
    publication.bundle.map fun bundle => (publication.site.id, bundle)

def siteRequiresTCPStream (sites : List Site) : Bool :=
  sites.any fun site => site.tcpOnly || (site.enabled && !site.tcpForwards.isEmpty)

/-- The security policies an edge without the capability does not understand are not sent. -/
def securityPoliciesForCapabilities (policies : List SecurityPolicy) (capabilities : List String) :
    Option (List SecurityPolicy) :=
  if capabilities.contains "edge_security_v1" then some policies else none

def rateLimitPoliciesForCapabilities (policies : List RateLimitPolicy)
    (capabilities : List String) : Option (List RateLimitPolicy) :=
  if !capabilities.contains "edge_rate_limit_v1" then none
  else if capabilities.contains "edge_security_v1" then some policies
  else if policies.isEmpty then none
  else some (policies.map fun policy => { policy with banEnabled := false })

/-- The content of a node's desired state, before it has a version. -/
def renderNode (db : Store) (sites : List Site) (certificates : List (String × TLSBundle))
    (node : Node) : Except StoreError DesiredState := do
  require (siteRequiresTCPStream sites = true → node.capabilities.contains "tcp_stream_v1" = true)
    (.message ("node " ++ node.name ++ " must be upgraded before publishing TCP forwards"))
  let inNode := fun text => StoreError.message ("node " ++ node.name ++ ": " ++ text)
  let cacheSizeGB ← (effectiveNodeCacheMaxSizeGB node db.cacheDefaultSizeGB).mapError inNode
  let config ← (Nginx.renderWithOptions sites
    (securityPoliciesForCapabilities db.securityPolicies node.capabilities)
    (rateLimitPoliciesForCapabilities db.rateLimitPolicies node.capabilities)
    cacheSizeGB).mapError StoreError.message
  let streamConfig ← (Nginx.renderStream sites).mapError StoreError.message
  let (mainConfig, eventsConfig) ← (Nginx.renderCapacity node.nginxCapacity).mapError
    fun text => .message ("node " ++ node.name ++ " capacity: " ++ text)
  return {
    version := 0
    nginxConfig := config
    nginxStreamConfig := streamConfig
    nginxMainConfig := mainConfig
    nginxEventsConfig := eventsConfig
    nginxFragments := Nginx.splitConfigFragments config streamConfig
    publicPorts := Nginx.requiredPublicPorts sites
    cacheMaxBytes := cacheSizeGB * 2 ^ 30
    certificates := certificates }

/-- `maps.Equal`. -/
def mapsEqual (left right : List (String × TLSBundle)) : Bool :=
  (left.map Prod.fst ++ right.map Prod.fst).all fun name => left.lookup name = right.lookup name

/-- `nodeStateMatches`: everything but the version agrees. -/
def nodeStateMatches (previous content : DesiredState) : Bool :=
  previous.nginxConfig = content.nginxConfig &&
    previous.nginxStreamConfig = content.nginxStreamConfig &&
    previous.nginxMainConfig = content.nginxMainConfig &&
    previous.nginxEventsConfig = content.nginxEventsConfig &&
    previous.nginxFragments = content.nginxFragments &&
    previous.publicPorts = content.publicPorts &&
    previous.cacheMaxBytes = content.cacheMaxBytes &&
    mapsEqual previous.certificates content.certificates

/-- The version a rendered content gets: none when the stored state has that content already. -/
def nextVersion (previous : Option DesiredState) (content : DesiredState) : Option Nat :=
  match previous with
  | none => some 1
  | some state => if nodeStateMatches state content then none else some (state.version + 1)

/-! ### All affected nodes -/

namespace Store

/-- `ListNodes`: ordered by name. -/
def listNodes (db : Store) : List Node :=
  db.nodes.rows.insertionSort fun m n => m.name ≤ n.name

end Store

/-- The loop of `renderNodeStateUpdates`.  A retired node is passed over, a node whose content is
stored already gets neither an update nor a target, and only an active node gets a target. -/
def renderNodes (db : Store) (rendered : List RenderedPublication) (affected : List String) :
    List Node → Except StoreError (List NodeStateUpdate × List PublishTaskNode)
  | [] => .ok ([], [])
  | node :: nodes =>
    if !affected.contains node.id || node.status.retired then renderNodes db rendered affected nodes
    else do
      let previous := db.nodeState node.id
      let content ← renderNode db (nodeSites rendered node.id previous)
        (nodeCertificates rendered node.id) node
      let (updates, targets) ← renderNodes db rendered affected nodes
      match nextVersion previous content with
      | none => return (updates, targets)
      | some version =>
        return (⟨node.id, { content with version := version }⟩ :: updates,
          if node.status = .active then ⟨node.id, version⟩ :: targets else targets)

def renderNodeStateUpdates (db : Store) (materials : List PublicationMaterial)
    (affected : List String) (now : Time) :
    Except StoreError (List NodeStateUpdate × List PublishTaskNode) := do
  db.ensureNodesNotUpgrading affected
  let rendered ← decryptPublicationMaterials affected now materials
  renderNodes db rendered affected db.listNodes

/-! ### Preparing one site -/

/-- The draft and its stored certificate; an enabled site may need the certificate. -/
def draftMaterial (target : Site) (row : Option CertificateRow) :
    Except StoreError PublicationMaterial :=
  match row with
  | some row => .ok ⟨target, some row.certificateCiphertext, some row.keyCiphertext⟩
  | none => do
    require (target.enabled = false ∨ target.needsCertificate = false) (.message
      ("site " ++ target.name ++ " needs a certificate before it can be published"))
    return ⟨target, none, none⟩

/-- `materialsByID` as a list: the other sites' publications and, unless the site is being
removed, its draft.  A material is dropped when its site record says `deleting`. -/
def prepareMaterials (publications : List SitePublication) (siteID : String)
    (draft : Option PublicationMaterial) : List PublicationMaterial :=
  let others := (publications.filter fun publication => publication.site.id ≠ siteID).map
    SitePublication.material
  ((others ++ draft.toList).filter fun material => !material.site.deleting).insertionSort
    fun p q => p.site.id ≤ q.site.id

/-- The nodes of the old publication and of the draft, or all of them. -/
def prepareAffected (publications : List SitePublication) (target : Site)
    (migrationRequired : Bool) (nodes : List Node) : List String :=
  (publications.filter fun publication => publication.site.id = target.id).flatMap
      (fun publication => publication.site.nodes) ++
    target.nodes ++ (if migrationRequired then nodes.map Node.id else [])

/-- `prepareNodeStates`, to publish the site or to remove it. -/
def prepareNodeStates (db : Store) (siteID : String) (removing : Bool) (now : Time) :
    Except StoreError (List NodeStateUpdate × List PublishTaskNode) := do
  db.checkPublicationMigrationSafety (if removing then "" else siteID)
  let target ← db.getSite siteID
  require (removing = true ∨ target.deleting = false) .siteDeleting
  let publications := db.listSitePublications
  let affected := prepareAffected publications target (db.publicationMigrationRequired siteID)
    db.listNodes
  if removing then
    renderNodeStateUpdates db (prepareMaterials publications siteID none) affected now
  else
    let draft ← draftMaterial target (db.certificate siteID)
    renderNodeStateUpdates db (prepareMaterials publications siteID (some draft)) affected now

/-! ### The entry points -/

/-- `publishSite`, the part of `PublishSite` that renders and commits. -/
def publishPrepared (db : Store) (siteID taskID : String) (expectedConfigVersion : Nat)
    (now : Time) : Except StoreError (List PublishTaskNode × Store) := do
  let (updates, targets) ← prepareNodeStates db siteID false now
  let (_, db) ← db.commitSitePublication siteID expectedConfigVersion taskID updates targets now
  return (targets, db)

/-- How long a publish task waits for its targets. -/
def publishTimeout : Nat := 90 * second

/-- `PublishSite` up to its own task: the site it read, the task, and whether it is new. -/
def startPublish (db : Store) (siteID taskID : String) (now : Time) :
    Except StoreError (Site × DeploymentTask × Bool × Store) := do
  let site ← db.getSite siteID
  require (site.deleting = false) .siteDeleting
  let (task, created, db) ←
    db.createOrGetActivePublishTask siteID taskID (now + publishTimeout) now
  if created then
    let db := db.setTask task.id .dispatching "building node configurations" now
    return (site, task, true,
      db.setTask task.id .applying "preparing edge configuration confirmation" now)
  else return (site, task, false, db)

/-- A publish without targets has nothing to wait for. -/
def finishPublish (db : Store) (taskID : String) (targets : List PublishTaskNode) (now : Time) :
    Store :=
  if targets.isEmpty then
    db.setTask taskID .succeeded
      "configuration staged; no active assigned edge nodes to confirm" now
  else db

/-- `PublishSite`.  Its error leaves the task behind as failed. -/
def publishSite (db : Store) (siteID taskID : String) (now : Time) :
    Except StoreError DeploymentTask × Store :=
  match startPublish db siteID taskID now with
  | .error error => (.error error, db)
  | .ok (_, task, false, db) => (.ok task, db)
  | .ok (site, task, true, db) =>
    match publishPrepared db siteID task.id site.configVersion now with
    | .error error => (.error error, db.setTask task.id .failed error.text now)
    | .ok (targets, db) =>
      let db := finishPublish db task.id targets now
      (db.getTask task.id, db)

/-- `PublishAll`. -/
def publishAll (db : Store) (now : Time) : Except StoreError Store := do
  db.checkPublicationMigrationSafety ""
  let (updates, _) ← renderNodeStateUpdates db (publicationMaterials db.listSitePublications)
    (db.listNodes.map Node.id) now
  Store.saveNodeStates now updates db

/-- `PublishNode`. -/
def publishNode (db : Store) (nodeID : String) (now : Time) : Except StoreError Store := do
  db.checkPublicationMigrationSafety ""
  let (updates, _) ← renderNodeStateUpdates db (publicationMaterials db.listSitePublications)
    [nodeID] now
  Store.saveNodeStates now updates db

/-- `StageSiteRemoval`. -/
def stageSiteRemoval (db : Store) (taskID siteID : String) (now : Time) :
    Except StoreError Store := do
  let (updates, targets) ← prepareNodeStates db siteID true now
  db.stageSiteDeletion taskID updates targets now

/-- `StoreCertificate`. -/
def storeCertificate (db : Store) (siteID : String) (certificate : Certificate)
    (privateKey : PrivateKey) (now : Time) : Except StoreError Store := do
  (validateCertificatePrivateKey certificate privateKey).mapError
    fun text => .message ("validate certificate private key: " ++ text)
  db.saveCertificate siteID (encrypt certificate) (encrypt privateKey) (some certificate.notAfter)
    now

end SimpleCdn
