import SimpleCdn.Control.Publisher

/-!
# The certificate manager

`CertificateManager` issues certificates with one worker.  `enqueue` creates a task and puts its
job into a channel with 32 places; the worker takes a job out, issues a certificate for the site
it has read, stores it, and publishes the site when the job is a renewal.  `Reconcile` goes over
all sites and queues renewals.

The issuer is outside: what it returns is an argument.
-/

namespace SimpleCdn

structure CertificateJob where
  taskID : String
  siteID : String
  kind : TaskKind
  deriving DecidableEq, Repr

/-- The capacity of the channel of jobs. -/
def certificateQueueCapacity : Nat := 32

/-- `certificateRenewalWindow`: 30 days. -/
def certificateRenewalWindow : Nat := 30 * 24 * 3600 * second

/-! ### Queueing -/

/-- `enqueue`, of a manager that is running. -/
def enqueue (db : Store) (queue : List CertificateJob) (kind : TaskKind)
    (siteID taskID detail : String) (now : Time) : Store × List CertificateJob :=
  match db.createOrGetActiveCertificateTask kind siteID taskID detail now with
  | .error _ => (db, queue)
  | .ok (_, false, db) => (db, queue)
  | .ok (task, true, db) =>
    if queue.length < certificateQueueCapacity then (db, queue ++ [⟨task.id, siteID, kind⟩])
    else
      (db.setTask task.id .failed "certificate queue is full; retry Issue TLS" now, queue)

def queueIssue (db : Store) (queue : List CertificateJob) (siteID taskID : String) (now : Time) :
    Store × List CertificateJob :=
  enqueue db queue .issueCertificate siteID taskID "queued for DNS-01 certificate issuance" now

def queueRenewal (db : Store) (queue : List CertificateJob) (siteID taskID : String) (now : Time) :
    Store × List CertificateJob :=
  enqueue db queue .renewCertificate siteID taskID "queued for certificate renewal" now

/-- The stored certificate of the site lasts longer than the renewal window. -/
def certificateLasts (db : Store) (siteID : String) (now : Time) : Bool :=
  match db.certificate siteID with
  | some row => row.notAfter.any fun notAfter => now + certificateRenewalWindow < notAfter
  | none => false

/-- `Reconcile` queues a renewal for the site. -/
def renewalDue (db : Store) (site : Site) (now : Time) : Bool :=
  site.enabled && site.published && site.needsCertificate && !certificateLasts db site.id now

/-- `ListSites`: ordered by name. -/
def Store.listSites (db : Store) : List Site :=
  db.sites.rows.insertionSort fun s t => s.name ≤ t.name

/-- The loop of `Reconcile`; `newTaskID` names the task it may create for a site. -/
def reconcileSites (newTaskID : String → String) (now : Time) :
    List Site → Store × List CertificateJob → Store × List CertificateJob
  | [], manager => manager
  | site :: sites, (db, queue) =>
    reconcileSites newTaskID now sites
      (if renewalDue db site now then queueRenewal db queue site.id (newTaskID site.id) now
        else (db, queue))

/-- `Reconcile`, with an issuer. -/
def reconcileCertificates (db : Store) (queue : List CertificateJob)
    (newTaskID : String → String) (now : Time) : Store × List CertificateJob :=
  reconcileSites newTaskID now db.listSites (db, queue)

/-! ### Running a job -/

/-- `runJob` up to the issuer: the site it has read. -/
def startJob (db : Store) (job : CertificateJob) (now : Time) : Option Site × Store :=
  match db.updateTask job.taskID .dispatching "preparing DNS-01 certificate issuance" now with
  | .error _ => (none, db)
  | .ok db =>
    match db.getSite job.siteID with
    | .error error => (none, db.setTask job.taskID .failed error.text now)
    | .ok site =>
      match db.updateTask job.taskID .applying "waiting for DNS-01 validation" now with
      | .error _ => (none, db)
      | .ok db => (some site, db)

/-- `issue`: check what the issuer returned for the site and store it. -/
def issueCertificate (db : Store) (site : Site)
    (issued : Except StoreError (Certificate × PrivateKey)) (now : Time) :
    Except StoreError Store := do
  let (certificate, privateKey) ← issued
  (validateCertificateDomains certificate site.domains now).mapError
    fun text => .message ("issuer returned unsuitable certificate: " ++ text)
  storeCertificate db site.id certificate privateKey now

/-- What `runJob` makes of the issuer's answer: whether the job goes on to publish. -/
def storeIssued (db : Store) (job : CertificateJob) (site : Site)
    (issued : Except StoreError (Certificate × PrivateKey)) (now : Time) : Bool × Store :=
  match issueCertificate db site issued now with
  | .error error => (false, db.setTask job.taskID .failed error.text now)
  | .ok db =>
    if job.kind = .renewCertificate then
      match db.updateTask job.taskID .succeeded "certificate renewed" now with
      | .error _ => (false, db)
      | .ok db => (true, db)
    else
      (false, db.setTask job.taskID .succeeded
        "certificate stored; publish the site to deploy it" now)

/-- The last step of a renewal, after its publish. -/
def finishRenewal (job : CertificateJob) (now : Time) :
    Except StoreError DeploymentTask × Store → Store
  | (.ok _, db) => db
  | (.error error, db) => db.setTask job.taskID .failed error.text now

/-- A restart: what was active has failed. -/
def restartCertificates (db : Store) (now : Time) : Store :=
  db.failActiveCertificateTasks
    "certificate issuance interrupted by control-plane restart; retry Issue TLS" now

/-! ### The handlers -/

/-- `issueCertificate` of the server. -/
def issueRequest (db : Store) (queue : List CertificateJob) (siteID taskID : String) (now : Time) :
    Store × List CertificateJob :=
  match db.getSite siteID with
  | .error _ => (db, queue)
  | .ok site =>
    if site.needsCertificate then queueIssue db queue site.id taskID now else (db, queue)

/-- `renewCertificate` of the server. -/
def renewRequest (db : Store) (queue : List CertificateJob) (siteID taskID : String) (now : Time) :
    Store × List CertificateJob :=
  match db.getSite siteID with
  | .error _ => (db, queue)
  | .ok site =>
    if site.needsCertificate && (db.certificate site.id).isSome then
      queueRenewal db queue site.id taskID now
    else (db, queue)

end SimpleCdn
