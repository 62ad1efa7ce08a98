import Mathlib.Data.List.Basic

/-!
# The control plane's data types

The records of `internal/domain` under the source's field names.  Identifiers, names and host
names are strings, as in the source; a time is a number of nanoseconds; Go's `int` and `int64`
fields that arithmetic never takes near their bounds are `Int` or `Nat`.  `*T` is `Option T`.

Ciphertexts, certificates and keys are kept as the values they carry: `Sealed` is what
`Cipher.Encrypt` returns and `Cipher.Decrypt` opens, and a certificate is what parsing its PEM
block yields.
-/

namespace SimpleCdn

/-- An instant, in nanoseconds. -/
abbrev Time := Nat

/-- `time.Second`. -/
def second : Nat := 1000000000

inductive NodeStatus
  | pending
  | active
  | draining
  | revoked
  | uninstalling
  | uninstalled
  deriving DecidableEq, Repr

inductive TaskStatus
  | queued
  | dispatching
  | applying
  | succeeded
  | partialSuccess
  | failed
  | rolledBack
  deriving DecidableEq, Repr

/-- `status IN ('queued', 'dispatching', 'applying')`, the condition of the task indexes. -/
def TaskStatus.active : TaskStatus → Bool
  | queued | dispatching | applying => true
  | _ => false

inductive TaskKind
  | publishSite
  | deleteSite
  | issueCertificate
  | renewCertificate
  deriving DecidableEq, Repr

/-- `kind IN ('issue_certificate', 'renew_certificate')`. -/
def TaskKind.certificate : TaskKind → Bool
  | issueCertificate | renewCertificate => true
  | _ => false

inductive PublishNodeStatus
  | pending
  | succeeded
  | failed
  | timedOut
  deriving DecidableEq, Repr

structure NginxCapacity where
  workerProcesses : Int
  workerConnections : Int
  workerRlimitNoFile : Int
  deriving DecidableEq, Repr

/-- A row of `nodes`; `certFingerprint` is the column the domain record leaves out. -/
structure Node where
  id : String
  name : String
  publicIPv4 : String
  cacheMaxSizeGB : Option Int
  nginxCapacity : NginxCapacity
  status : NodeStatus
  monitorAutoPaused : Bool
  capabilities : List String
  certFingerprint : Option String
  agentVersion : String
  agentSHA256 : String
  activeUpgradeID : String
  lastHeartbeatAt : Option Time
  appliedVersion : Nat
  lastError : String
  createdAt : Time
  updatedAt : Time
  deriving DecidableEq, Repr

structure Origin where
  url : String
  hostHeader : String
  tlsServerName : String
  enabled : Bool
  deriving DecidableEq, Repr

structure TCPForward where
  name : String
  listenPort : Int
  listenTLS : Bool
  upstreamHost : String
  upstreamPort : Int
  upstreamTLS : Bool
  upstreamTLSServerName : String
  connectTimeoutSeconds : Int
  idleTimeoutSeconds : Int
  deriving DecidableEq, Repr

structure Site where
  id : String
  name : String
  zoneID : String
  domains : List String
  nodes : List String
  primaryOrigin : Origin
  backupOrigin : Option Origin
  streamPaths : List String
  passthrough : Bool
  clientMaxBodySizeMB : Int
  clientKeepaliveTimeoutSeconds : Int
  readWriteTimeoutSeconds : Int
  dnsTTLSeconds : Option Int
  tcpOnly : Bool
  tcpForwards : List TCPForward
  cacheGeneration : Nat
  configVersion : Nat
  published : Bool
  enabled : Bool
  deleting : Bool
  createdAt : Time
  updatedAt : Time
  deriving DecidableEq, Repr

structure DeploymentTask where
  id : String
  kind : TaskKind
  siteID : String
  status : TaskStatus
  detail : String
  deadlineAt : Option Time
  createdAt : Time
  updatedAt : Time
  deriving DecidableEq, Repr

inductive ApplyStatus
  | succeeded
  | failed
  deriving DecidableEq, Repr

structure ApplyReport where
  version : Nat
  status : ApplyStatus
  code : String
  detail : String
  deriving DecidableEq, Repr

inductive SecurityPolicyAction
  | block
  | ban
  deriving DecidableEq, Repr

structure SecurityPolicy where
  id : String
  name : String
  enabled : Bool
  pattern : String
  action : SecurityPolicyAction
  banDurationSeconds : Int
  priority : Int
  deriving DecidableEq, Repr

structure RateLimitPolicy where
  id : String
  name : String
  enabled : Bool
  requestsPerSecond : Int
  responseConditionEnabled : Bool
  responseStatusClasses : List Int
  banEnabled : Bool
  banAfterConsecutive429 : Int
  banDurationSeconds : Int
  deriving DecidableEq, Repr

/-! ### Certificate material -/

/-- What parsing a PEM certificate yields: the names it covers, its expiry and its public key.
The serial number tells two certificates with the same contents apart. -/
structure Certificate where
  serial : Nat
  dnsNames : List String
  notAfter : Time
  publicKey : Nat
  deriving DecidableEq, Repr

/-- A private key, named by the public key it belongs to. -/
structure PrivateKey where
  publicKey : Nat
  deriving DecidableEq, Repr

structure TLSBundle where
  certificatePEM : Certificate
  privateKeyPEM : PrivateKey
  deriving DecidableEq, Repr

/-- An output of `Cipher.Encrypt`, opened by `Cipher.Decrypt` with the same key. -/
structure Sealed (α : Type) where
  plain : α
  deriving DecidableEq, Repr

/-- `Cipher.Encrypt`. -/
def encrypt {α : Type} (plain : α) : Sealed α :=
  ⟨plain⟩

/-- `Cipher.Decrypt`, of a ciphertext this control plane wrote. -/
def decrypt {α : Type} (ciphertext : Sealed α) : α :=
  ciphertext.plain

@[simp] theorem decrypt_encrypt {α : Type} (plain : α) : decrypt (encrypt plain) = plain := rfl

end SimpleCdn
