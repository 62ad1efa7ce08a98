import SimpleCdn.Store.Nodes

/-!
# DNS records at the provider

The provider keeps records by an identifier of its own, in zones.  A record that the control plane
manages carries the site and the node it is for in its comment, and nothing else says whose it is.
Both operations on a zone list its records first and then change them one request at a time, so
they are given here as the requests that follow from a listing.

Names of domains are canonical, and the comment is kept as the two identifiers it consists of.
-/

namespace SimpleCdn

/-- A comment with `ManagedRecordPrefix`. -/
structure ManagedComment where
  site : String
  node : String
  deriving DecidableEq, Repr

/-- A record that `reconcileSiteDNSOutcome` asks for. -/
structure DesiredRecord where
  name : String
  content : String
  ttl : Nat
  comment : ManagedComment
  deriving DecidableEq, Repr

structure DNSRecord where
  id : String
  zone : String
  isA : Bool
  name : String
  content : String
  ttl : Nat
  comment : Option ManagedComment
  deriving DecidableEq, Repr

inductive DNSRequest
  | create (record : DesiredRecord)
  | update (id : String) (record : DesiredRecord)
  | delete (id : String)
  deriving DecidableEq, Repr

/-- `managedRecordMatchesNode`, of an A record. -/
def DNSRecord.names (record : DNSRecord) (nodeID : String) : Bool :=
  record.isA && record.comment.any fun comment => comment.node = nodeID

/-- The record is managed for the site. -/
def DNSRecord.ownedBy (record : DNSRecord) (siteID : String) : Bool :=
  record.isA && record.comment.any fun comment => comment.site = siteID

/-- `recordKey` -/
def DNSRecord.hasKey (record : DNSRecord) (desired : DesiredRecord) : Bool :=
  record.name = desired.name && record.content = desired.content &&
    record.comment = some desired.comment

/-- The name belongs to somebody else; `Reconcile` refuses to manage it. -/
def refuses (existing : List DNSRecord) (siteID : String) (desired : DesiredRecord) : Bool :=
  existing.any fun record => record.name = desired.name && !record.ownedBy siteID

/-- What `Reconcile` does about a desired record. -/
def wantedRequest (existing : List DNSRecord) (siteID : String) (desired : DesiredRecord) :
    Option DNSRequest :=
  if refuses existing siteID desired then none
  else
    match existing.find? fun record => record.ownedBy siteID && record.hasKey desired with
    | some record =>
      if record.ttl = desired.ttl then none else some (.update record.id desired)
    | none => some (.create desired)

/-- The requests of `Reconcile`, given the records of the zone. -/
def reconcileRequests (existing : List DNSRecord) (siteID : String) (desired : List DesiredRecord) :
    List DNSRequest :=
  desired.filterMap (wantedRequest existing siteID) ++
    (existing.filter fun record =>
      record.ownedBy siteID && !desired.any record.hasKey).map fun record => .delete record.id

/-- The records that `RemoveNode` deletes. -/
def removeNodeRecords (existing : List DNSRecord) (nodeID : String) : List String :=
  (existing.filter fun record => record.names nodeID).map DNSRecord.id

/-- The records that `reconcileSiteDNSOutcome` wants for a site, if it decides to reconcile at all.
`converging` and `eligible` are what its reads of upgrades, versions and health say about nodes;
`nodes` is the list the round has read. -/
def desiredRecords (site : Site) (nodes : List Node) (converging eligible : String → Bool)
    (ttl : Nat) : Option (List DesiredRecord) :=
  let assigned := site.nodes.filterMap fun nodeID => nodes.find? fun node => node.id = nodeID
  if assigned.any fun node => converging node.id then none
  else
    let active := assigned.filter fun node => node.status = .active
    let healthy := active.filter fun node => eligible node.id
    if healthy = [] then if active = [] then some [] else none
    else some (healthy.flatMap fun node => site.domains.map fun name =>
      ⟨name, node.publicIPv4, ttl, ⟨site.id, node.id⟩⟩)

/-- `DNSTTL`, in seconds. -/
def effectiveDNSTTL (site : Site) (defaultTTL : Nat) : Nat :=
  match site.dnsTTLSeconds with
  | some ttl => ttl.toNat
  | none => defaultTTL

end SimpleCdn
