import SimpleCdn.Store.NodeUninstall

/-!
# Node operations

`NodeOp` collects what administrators, the monitoring rounds, the uninstall script and the edges'
heartbeats do to nodes, as one type of operation.
-/

namespace SimpleCdn

inductive NodeOp
  | createNode (id name publicIPv4 : String)
  | setCacheMaxSizeGB (nodeID : String) (size : Option Int)
  | setNginxCapacity (nodeID : String) (capacity : NginxCapacity)
  | setCapabilities (nodeID : String) (capabilities : List String)
  | createEnrollmentToken (nodeID token : String) (expiresAt : Time)
  | setNodeStatus (nodeID : String) (status : NodeStatus)
  | recordMonitoringRound (nodeID : String) (consecutiveAbnormal : Nat)
  | heartbeat (nodeID : String) (appliedVersion : Nat) (lastError : String)
      (report : Option ApplyReport) (agentVersion agentSHA256 activeUpgradeID : String)
  | prepareUninstall (nodeID : String) (affectedSiteIDs : List String) (readyAt : Time)
  | issueUninstallToken (nodeID token : String) (expiresAt : Time)
  | startUninstall (token : String)
  | failUninstall (token detail : String)
  | completeUninstall (token : String)
  | forceCompleteUninstall (nodeID detail : String)
  | cancelUninstall (nodeID : String)
  | deleteNode (nodeID : String)

def NodeOp.apply (db : Store) (now : Time) : NodeOp → Except StoreError Store
  | .createNode id name publicIPv4 => Prod.snd <$> db.createNode id name publicIPv4 now
  | .setCacheMaxSizeGB nodeID size => db.setNodeCacheMaxSizeGB nodeID size now
  | .setNginxCapacity nodeID capacity => db.setNodeNginxCapacity nodeID capacity now
  | .setCapabilities nodeID capabilities => db.setNodeCapabilities nodeID capabilities now
  | .createEnrollmentToken nodeID token expiresAt =>
    db.createEnrollmentToken nodeID token expiresAt now
  | .setNodeStatus nodeID status => db.setNodeStatus nodeID status now
  | .recordMonitoringRound nodeID consecutiveAbnormal =>
    db.recordMonitoringRound nodeID consecutiveAbnormal now
  | .heartbeat nodeID appliedVersion lastError report agentVersion agentSHA256 activeUpgradeID =>
    db.heartbeat nodeID appliedVersion lastError report agentVersion agentSHA256 activeUpgradeID
      now
  | .prepareUninstall nodeID affectedSiteIDs readyAt =>
    db.prepareNodeUninstall nodeID affectedSiteIDs readyAt now
  | .issueUninstallToken nodeID token expiresAt =>
    db.issueNodeUninstallToken nodeID token expiresAt now
  | .startUninstall token => db.startNodeUninstall token now
  | .failUninstall token detail => db.failNodeUninstall token detail now
  | .completeUninstall token => db.completeNodeUninstall token now
  | .forceCompleteUninstall nodeID detail => db.forceCompleteNodeUninstall nodeID detail now
  | .cancelUninstall nodeID => db.cancelNodeUninstall nodeID now
  | .deleteNode nodeID => do
    let node ← db.getNode nodeID
    require (db.nodeCanBeDeleted node = true)
      (.message "only uninstalled or never-enrolled pending nodes can be deleted")
    db.deleteNode nodeID

/-- An apply report of success names a version the edge has applied: the agent writes the file
its heartbeats read the applied version from before it keeps the report. -/
def reportApplied (appliedVersion : Nat) : Option ApplyReport → Bool
  | some report => report.status = .failed || report.version ≤ appliedVersion
  | none => true

/-- The operation can occur: a heartbeat is one that an edge sends. -/
def NodeOp.sent : NodeOp → Bool
  | .heartbeat _ appliedVersion _ report _ _ _ => reportApplied appliedVersion report
  | _ => true

end SimpleCdn
