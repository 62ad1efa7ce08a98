import Mathlib.Data.List.Sort
import SimpleCdn.Agent.CacheLayout
import SimpleCdn.Lib.Text
import SimpleCdn.Restore.Archive

/-!
# Applying a desired state

`apply` writes the certificates, the fragments and the configuration files of a desired state, has
Nginx test and load them and waits until Nginx listens on every public port.  What it has written
is taken back when a step fails.  The applied version is written last.

The listings of listening sockets are an input.
-/

namespace SimpleCdn.Agent

open Crash Crash.Prog

/-- What the agent takes from other packages: the digest of a text as `%x` prints it, cut to twelve
digits, `uuid.Parse`, `strings.ToLower` and the order in which a map of backups is gone through. -/
structure Packages where
  digest : String → String
  isUUID : String → Bool
  toLower : String → String
  order : List Backup → List Backup
  order_perm : ∀ backups, (order backups).Perm backups

/-- Parts of `Config`: the directory `fragments` beside `NginxConfigPath`, as a clean absolute
path. -/
structure Config where
  fragmentRoot : String

structure NginxConfigFragment where
  name : String
  content : String
  deriving DecidableEq, Repr

structure NginxConfigFragments where
  httpBase : String
  httpSites : List NginxConfigFragment
  streamBase : String
  streamSites : List NginxConfigFragment
  deriving DecidableEq, Repr

/-- An entry of the map of certificates. -/
structure SiteCertificate where
  siteID : String
  certificatePEM : String
  privateKeyPEM : String
  deriving DecidableEq, Repr

instance : Keyed SiteCertificate String := ⟨SiteCertificate.siteID⟩

/-- A desired state as the edge receives it. -/
structure DesiredState where
  version : ℕ
  nginxConfig : String
  nginxStreamConfig : String
  nginxMainConfig : String
  nginxEventsConfig : String
  nginxFragments : Option NginxConfigFragments
  publicPorts : Option (List ℤ)
  certificates : Table SiteCertificate

structure PortConflict where
  port : ℤ
  pid : ℤ
  process : String
  deriving DecidableEq, Repr

/-- What `PortListeners` returns, `none` for an error: before anything is written, after Nginx has
refused the new configuration, and each time it is asked after that Nginx has accepted it. -/
structure Listings where
  before : Option (List PortConflict)
  refused : Option (List PortConflict)
  settling : Option (List PortConflict)
  others : List (Option (List PortConflict))

/-- The code of a failed `ApplyReport`, and its port conflicts. -/
structure Failure where
  code : String
  conflicts : List PortConflict
  deriving DecidableEq, Repr

/-! ### Ports and listeners -/

def desiredPublicPorts (state : DesiredState) : Except Unit (List ℤ) :=
  match state.publicPorts with
  | none => .ok [80, 443]
  | some ports =>
    if ports.all fun port => 1 ≤ port && port ≤ 65535 then
      .ok (ports.dedup.insertionSort (· ≤ ·))
    else .error ()

section

variable (packages : Packages)

/-- A listener that belongs to Nginx. -/
def isNginx (listener : PortConflict) : Bool :=
  let name := packages.toLower (Text.trimSpace listener.process)
  name = "nginx" || Text.hasPrefix name "nginx:"

def foreignListeners (listeners : List PortConflict) : List PortConflict :=
  listeners.filter fun listener => !isNginx packages listener

def nginxOwnsPorts (listeners : List PortConflict) (ports : List ℤ) : Bool :=
  ports.all fun port => listeners.any fun listener =>
    isNginx packages listener && listener.port = port

def managedListenerPorts (backups : List Backup) (ports : List ℤ) : List ℤ :=
  ports.filter fun port => backups.any fun backup => backup.2.any fun contents =>
    Text.contains contents s!"listen {port};" || Text.contains contents s!"listen {port} "

def unmanagedListeners (listeners : List PortConflict) (managed : List ℤ) : List PortConflict :=
  listeners.filterMap fun listener =>
    if isNginx packages listener then
      if managed.contains listener.port then none
      else some { listener with process := "nginx (unmanaged configuration)" }
    else some listener

/-- The listing that decides, or the last one before the time is over. -/
def waitForNginxListeners (ports : List ℤ) :
    Option (List PortConflict) → List (Option (List PortConflict)) → Option (List PortConflict)
  | none, _ => none
  | some listeners, [] => some listeners
  | some listeners, next :: others =>
    if foreignListeners packages listeners ≠ [] || nginxOwnsPorts packages listeners ports then
      some listeners
    else waitForNginxListeners ports next others

end

/-! ### Backups -/

def generatedHeader : String := "# Generated by cdn-edge-agent. Do not edit.\n"

def generatedFragmentIndex (root directory : String) : String :=
  generatedHeader ++ "include " ++ root ++ "/" ++ directory ++ "/*.conf;\n"

/-- The directory that an index includes; `some none` for an index that is refused. -/
def indexedDirectory (root contents : String) : Option (Option String) :=
  if Text.hasPrefix contents (generatedHeader ++ "include ") then
    let line := (contents.toList.drop generatedHeader.toList.length).takeWhile (· ≠ '\n')
    let ending := "/*.conf;".toList
    if ending.isSuffixOf line then
      let directory := String.ofList
        ((line.take (line.length - ending.length)).drop "include ".toList.length)
      let parts := Restore.clean true (FileTree.components directory)
      if FileTree.isAbs directory &&
          parts.dropLast = Restore.clean true (FileTree.components root) then
        some parts.getLast?
      else some none
    else some none
  else none

/-- The fragments that an index includes, as `addFragmentBackups` reads them. -/
def fragmentBackups (config : Config) (h : Host) (index : Option String) :
    Except Unit (List Backup) :=
  match index.bind (indexedDirectory config.fragmentRoot) with
  | none => .ok []
  | some none => .error ()
  | some (some directory) =>
    let fragments := (h.entries directory).filter fun entry =>
      ".conf".toList.isSuffixOf entry.1.toList
    if fragments = [] then .error ()
    else .ok (fragments.map fun entry => (.fragment directory entry.1, some entry.2))

/-- The first loop of `apply`, and `addFragmentBackups`. -/
def configurationBackups (config : Config) (h : Host) : Except Unit (List Backup) := do
  let http ← fragmentBackups config h (h.file (.config .http))
  let stream ← fragmentBackups config h (h.file (.config .stream))
  return [ConfigFile.http, .stream, .main, .events].map
      (fun file => (.config file, h.file (.config file))) ++ http ++ stream

/-! ### Failures -/

section

variable {α : Type}

/-- `applyFailed`, after what has been done so far is taken back. -/
def failed (undo : Prog Host Unit) (code : String) (conflicts : List PortConflict) :
    Attempt Failure Host α := do
  Attempt.lift undo
  throw ⟨code, conflicts⟩

def recovering (undo : Prog Host Unit) (code : String) (p : Attempt Unit Host α) :
    Attempt Failure Host α :=
  p.handling fun _ => failed undo code []

end

/-! ### Certificates -/

def SiteCertificate.names (certificate : SiteCertificate) : List String :=
  [certificate.siteID ++ ".crt", certificate.siteID ++ ".key"]

def managedSiteCertificateName (packages : Packages) (name : String) : Bool :=
  [".crt", ".key"].any fun extension =>
    extension.toList.isSuffixOf name.toList && packages.isUUID (Text.trimSuffix name extension)

/-- The files that are written or removed, as they are. -/
def certificateBackups (h : Host) (names : List String) : List Backup :=
  names.map fun name => (.certificate name, h.file (.certificate name))

def stageCertificates (packages : Packages) (certificates : Table SiteCertificate) :
    Attempt Failure Host (List Backup) := do
  recovering (pure ()) "certificate_write_failed" check
  let desired := certificates.rows.flatMap SiteCertificate.names
  let present ← recovering (pure ()) "certificate_backup_failed"
    (Attempt.look () Host.certificateNames)
  let stale := present.filter fun name =>
    managedSiteCertificateName packages name && !desired.contains name
  let backups ← recovering (pure ()) "certificate_backup_failed"
    (Attempt.look () fun h => certificateBackups h (desired ++ stale))
  let undo := restoreBackups (packages.order backups)
  Attempt.each (fun certificate : SiteCertificate => do
    recovering undo "certificate_write_failed"
      (write (.certificate (certificate.siteID ++ ".crt")) certificate.certificatePEM)
    recovering undo "private_key_write_failed"
      (write (.certificate (certificate.siteID ++ ".key")) certificate.privateKeyPEM))
    certificates.rows
  Attempt.each (fun name => recovering undo "certificate_remove_failed"
    (remove (.certificate name))) stale
  return backups

/-! ### Fragments -/

def validFragmentName (name : String) : Bool :=
  ".conf".toList.isSuffixOf name.toList && name.toList.all fun c =>
    ('a' ≤ c && c ≤ 'z') || ('A' ≤ c && c ≤ 'Z') || ('0' ≤ c && c ≤ '9') || c = '-' || c = '_' ||
      c = '.'

/-- The files of a directory of fragments. -/
def fragmentEntries (base : String) (fragments : List NginxConfigFragment) :
    List (String × String) :=
  ("00-base.conf", base) :: fragments.map fun fragment => (fragment.name, fragment.content)

def fragmentsValid (fragments : List NginxConfigFragment) : Bool :=
  fragments.all fun fragment => validFragmentName fragment.name && fragment.content ≠ ""

def fragmentDirectory (packages : Packages) (kind : String) (version : ℕ) (base : String)
    (fragments : List NginxConfigFragment) : String :=
  kind ++ "-v" ++ toString version ++ "-" ++ packages.digest (base ++ String.join
    (fragments.map fun fragment => "\x00" ++ fragment.name ++ "\x00" ++ fragment.content))

/-- There is a directory, and it has exactly these files; an error when it has others. -/
def fragmentDirectoryMatches (h : Host) (directory base : String)
    (fragments : List NginxConfigFragment) : Except Unit Bool :=
  let entries := h.entries directory
  let expected := fragmentEntries base fragments
  if entries = [] then .ok false
  else if fragmentsValid fragments && (expected.map Prod.fst).Nodup &&
      entries.length = expected.length && entries.all expected.contains then .ok true
  else .error ()

/-- A directory of fragments that is in its place, and whether it has just been put there. -/
structure StagedDirectory where
  name : String
  created : Bool

def stageFragmentDirectory (packages : Packages) (kind : String) (version : ℕ) (base : String)
    (fragments : List NginxConfigFragment) : Attempt Unit Host StagedDirectory :=
  if base = "" then throw ()
  else do
    let directory := fragmentDirectory packages kind version base fragments
    let read ← Attempt.look () fun h => fragmentDirectoryMatches h directory base fragments
    let found ← Attempt.ofExcept read
    if found then pure ⟨directory, false⟩
    else do
      -- the temporary directory, its permissions and the file `00-base.conf`
      Attempt.each (fun _ => check) ["MkdirTemp", "Chmod", "00-base.conf"]
      if fragmentsValid fragments &&
          ((fragmentEntries base fragments).map Prod.fst).Nodup then do
        Attempt.each (fun _ => check) fragments
        let rename : Attempt Unit Host StagedDirectory := do
          Attempt.act () fun h =>
            if h.entries directory = [] then
              some (h.install directory (fragmentEntries base fragments))
            else none
          pure ⟨directory, true⟩
        rename.handling fun _ => do
          let read ← Attempt.look () fun h => fragmentDirectoryMatches h directory base fragments
          let found ← Attempt.ofExcept read
          if found then pure ⟨directory, false⟩ else throw ()
      else throw ()

/-- The two index files, the directories that they include and the ones of these that are new. -/
structure StagedConfig where
  http : String
  stream : String
  active : List String
  created : List String

def stageNginxFragments (packages : Packages) (config : Config) (version : ℕ)
    (fragments : NginxConfigFragments) : Attempt Unit Host StagedConfig := do
  check
  let http ← stageFragmentDirectory packages "http" version fragments.httpBase fragments.httpSites
  let stream ← (stageFragmentDirectory packages "stream" version fragments.streamBase
    fragments.streamSites).handling fun e => do
      Attempt.lift (removeDirectories (if http.created then [http.name] else []))
      throw e
  pure {
    http := generatedFragmentIndex config.fragmentRoot http.name
    stream := generatedFragmentIndex config.fragmentRoot stream.name
    active := [http.name, stream.name]
    created := ([http, stream].filter StagedDirectory.created).map StagedDirectory.name }

/-- The deletion of every other directory of fragments; errors are not looked at. -/
def cleanupOldFragmentDirectories (active : List String) : Prog Host Unit :=
  if active = [] then pure ()
  else do
    match ← inspect Host.directories with
    | none => pure ()
    | some directories => do
      let _ ← Prog.all (fun directory => Prog.act fun h => some (h.removeDirectory directory))
        (directories.filter fun directory =>
          (Text.hasPrefix directory "http-v" || Text.hasPrefix directory "stream-v") &&
            !active.contains directory)
      pure ()

/-! ### The configuration -/

/-- `Runner.Test` -/
def testNginx : Attempt Unit Host Unit :=
  check

/-- `Runner.Apply`; Nginx may have loaded the configuration when it reports an error. -/
def applyNginx : Attempt Unit Host Unit :=
  Attempt.request () fun h => some { h with running := h.loaded }

def restorePreviousConfigs (backups : List Backup) : Prog Host Unit := do
  restoreBackups backups
  let reloaded ← (do
    testNginx
    applyNginx : Attempt Unit Host Unit).run
  if reloaded.isOk then pure () else modify fun h => { h with unrestored := true }

/-- A configuration file that is written when the desired state has contents for it. -/
def writeConfig (file : ConfigFile) (contents : String) : Attempt Unit Host Unit :=
  if contents = "" then pure () else write (.config file) contents

def apply (packages : Packages) (config : Config) (installed : Bool) (state : DesiredState)
    (listings : Listings) : Attempt Failure Host Unit := do
  let ports ← recovering (pure ()) "invalid_desired_state"
    (Attempt.ofExcept (desiredPublicPorts state))
  let read ← recovering (pure ()) "config_backup_failed"
    (Attempt.look () (configurationBackups config))
  let configurations ← recovering (pure ()) "config_backup_failed" (Attempt.ofExcept read)
  match listings.before with
  | none => failed (pure ()) "port_check_failed" []
  | some listeners =>
  let conflicts := unmanagedListeners packages listeners (managedListenerPorts configurations ports)
  if conflicts ≠ [] then failed (pure ()) "port_conflict" conflicts
  else do
  let certificates ← stageCertificates packages state.certificates
  let staged ← recovering (restoreBackups (packages.order certificates)) "config_write_failed"
    (match state.nginxFragments with
    | some fragments => stageNginxFragments packages config state.version fragments
    | none => pure ⟨state.nginxConfig, state.nginxStreamConfig, [], []⟩)
  let undoFiles : Prog Host Unit := do
    restoreBackups (packages.order certificates)
    restoreBackups (packages.order configurations)
    removeDirectories staged.created
  let undo : Prog Host Unit := do
    restoreBackups (packages.order certificates)
    restorePreviousConfigs (packages.order configurations)
    removeDirectories staged.created
  recovering undoFiles "config_write_failed" (writeConfig .main state.nginxMainConfig)
  recovering undoFiles "config_write_failed" (writeConfig .events state.nginxEventsConfig)
  recovering undoFiles "config_write_failed" (write (.config .http) staged.http)
  recovering undoFiles "config_write_failed" (write (.config .stream)
    (if staged.stream = "" then generatedHeader else staged.stream))
  recovering undo "cache_layout_failed" (prepareManagedCacheLayout state.nginxConfig)
  recovering undo "nginx_config_invalid" testNginx
  applyNginx.handling fun _ =>
    match (listings.refused.map (foreignListeners packages)).getD [] with
    | [] => failed undo "nginx_apply_failed" []
    | conflicts => failed undo "port_conflict" conflicts
  match waitForNginxListeners packages ports listings.settling listings.others with
  | none => failed undo "port_check_failed" []
  | some listeners =>
  if foreignListeners packages listeners ≠ [] then
    failed undo "port_conflict" (foreignListeners packages listeners)
  else if nginxOwnsPorts packages listeners ports then do
    -- from here on nothing is taken back
    let _ ← Attempt.lift (reconcileInstalledCacheLayout installed state.nginxConfig)
    recovering (pure ()) "applied_version_write_failed"
      (Attempt.act () fun h => some { h with appliedVersion := state.version })
    Attempt.lift (cleanupOldFragmentDirectories staged.active)
  else failed undo "nginx_not_listening" []

/-- `appliedVersion`: a file that cannot be read counts as none. -/
def appliedVersion : Prog Host ℕ := do
  let version ← inspect Host.appliedVersion
  pure (version.getD 0)

/-- `Sync`, of a desired state that has been received. -/
def sync (packages : Packages) (config : Config) (installed : Bool) (state : DesiredState)
    (listings : Listings) : Attempt Failure Host Unit := do
  let applied ← Attempt.lift appliedVersion
  if state.version = 0 || state.nginxConfig = "" || state.version ≤ applied then pure ()
  else apply packages config installed state listings

end SimpleCdn.Agent
