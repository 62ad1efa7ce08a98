import SimpleCdn.Control.Dns
import SimpleCdn.Retirement.System

/-!
# Draining a node from DNS before its uninstall

To the system of `Retirement` this adds the DNS provider, the handler that prepares an uninstall
and the health rounds.  The handler removes the node's records zone by zone before it opens the
workflow; a round reads the nodes once and reconciles the records of one publication after the
other later on.  Requests to the provider are executed one at a time, in any order, and either
party may give up after any of them.

Sites are not deleted here.  `deleted` lists the records that have been deleted, with their times;
no step reads it.
-/

namespace SimpleCdn.Draining

open Retirement Transition

/-- How far the handler `prepareNodeUninstall` has come. -/
inductive PrepareStage
  /-- The node has been found paused or revoked. -/
  | node
  /-- No open workflow has been found. -/
  | free
  /-- The sites have been read. -/
  | sites (sites : List Site)
  /-- `zones` have not been listed yet, `records` are still to be deleted. -/
  | removing (affected zones records : List String)
  /-- All zones are done, and `readyAt` has been computed. -/
  | removed (affected : List String) (readyAt : Time)

structure PrepareCall where
  nodeID : String
  stage : PrepareStage

/-- A health round. -/
structure Round where
  nodes : List Node
  drafts : Option (List Site)
  publications : Option (List SitePublication)

/-- A call of `Reconcile`, with the requests that follow from its listing. -/
structure ReconcileCall where
  zone : String
  siteID : String
  desired : List DesiredRecord
  requests : Option (List DNSRequest)

structure State where
  base : Retirement.State
  prepares : List PrepareCall
  rounds : List Round
  reconciles : List ReconcileCall
  records : List DNSRecord
  deleted : List (DNSRecord × Time)
  defaultTTL : Nat

inductive Action
  | base (a : Retirement.Action)
  | setDNSDefaultTTL (ttl : Nat)
  | prepare (nodeID : String)
  /-- The handler `i` goes on, with the zone `j` of those that are left. -/
  | prepareStep (i j : Nat) (now : Time)
  | prepareEnd (i : Nat)
  | round
  | roundDrafts (i : Nat)
  | roundPublications (i : Nat)
  /-- The round `i` reconciles the publication `j`. -/
  | roundSite (i j : Nat) (converging eligible : String → Bool)
  /-- The round `i` clears the records of the draft `j`. -/
  | roundDraft (i j : Nat)
  | list (k : Nat)
  /-- The request `j` of the call `k`; a record that it creates is given the identifier `id`. -/
  | request (k j : Nat) (id : String) (now : Time)
  | reconcileEnd (k : Nat)

def initial : State where
  base := Retirement.initial
  prepares := []
  rounds := []
  reconciles := []
  records := []
  deleted := []
  defaultTTL := 60

/-- Workflows are opened by the handler, and sites stay. -/
def excluded : Retirement.Action → Bool
  | .node (.prepareUninstall ..) _ => true
  | .site (.completeSiteDeletion ..) => true
  | _ => false

def State.store (s : State) : Store :=
  s.base.calls.store

/-! ### The provider -/

def State.deleteRecord (s : State) (id : String) (now : Time) : State :=
  { s with
    records := s.records.filter fun record => record.id ≠ id
    deleted := ((s.records.filter fun record => record.id = id).map fun record =>
      (record, now)) ++ s.deleted }

def State.hasRecord (s : State) (id : String) : Bool :=
  s.records.any fun record => record.id = id

/-- Identifiers are not given twice. -/
def State.usedRecordID (s : State) (id : String) : Bool :=
  s.hasRecord id || s.deleted.any fun entry => entry.1.id = id

/-- The provider executes a request, or refuses it. -/
def State.execute (s : State) (zone : String) (id : String) (now : Time) :
    DNSRequest → Option State
  | .create desired =>
    if s.usedRecordID id then none
    else some { s with
      records := ⟨id, zone, true, desired.name, desired.content, desired.ttl,
        some desired.comment⟩ :: s.records }
  | .update recordID desired =>
    if s.hasRecord recordID then
      some { s with
        records := s.records.map fun record =>
          if record.id = recordID then
            { record with
              isA := true, name := desired.name, content := desired.content, ttl := desired.ttl,
              comment := some desired.comment }
          else record }
    else none
  | .delete recordID => if s.hasRecord recordID then some (s.deleteRecord recordID now) else none

/-! ### The handler that prepares an uninstall -/

def State.setPrepare (s : State) (i : Nat) (call : PrepareCall) (stage : PrepareStage) : State :=
  { s with prepares := s.prepares.set i { call with stage := stage } }

def State.endPrepare (s : State) (i : Nat) : State :=
  { s with prepares := s.prepares.eraseIdx i }

/-- The zones of the drafts and the publications. -/
def zonesOf (sites : List Site) (publications : List SitePublication) : List String :=
  (sites.map Site.zoneID ++ publications.map fun publication => publication.site.zoneID).dedup

/-- The sites whose draft or publication has the node. -/
def affectedBy (nodeID : String) (sites : List Site) (publications : List SitePublication) :
    List String :=
  (((sites ++ publications.map SitePublication.site).filter fun site =>
    siteHasNode site nodeID).map Site.id).dedup

/-- The workflow is opened. -/
def State.openWorkflow (s : State) (nodeID : String) (affected : List String)
    (readyAt now : Time) : State :=
  { s with
    base := Retirement.step s.base (.node (.prepareUninstall nodeID affected readyAt) now) }

def State.prepareStep (s : State) (i j : Nat) (call : PrepareCall) (now : Time) : State :=
  match call.stage with
  | .node =>
    match s.store.nodeUninstallJobs.find? call.nodeID with
    | some job =>
      if job.status = .canceled then s.setPrepare i call .free else s.endPrepare i
    | none => s.setPrepare i call .free
  | .free => s.setPrepare i call (.sites s.store.listSites)
  | .sites sites =>
    let publications := s.store.listSitePublications
    s.setPrepare i call (.removing (affectedBy call.nodeID sites publications)
      (zonesOf sites publications) [])
  | .removing affected zones (record :: records) =>
    if s.hasRecord record then
      (s.deleteRecord record now).setPrepare i call (.removing affected zones records)
    else s.endPrepare i
  | .removing affected zones [] =>
    match zones with
    | [] => s.setPrepare i call (.removed affected (now + uninstallDNSWait))
    | _ =>
      match zones[j]? with
      | some zone =>
        let listed := s.records.filter fun record => record.zone = zone
        s.setPrepare i call
          (.removing affected (zones.eraseIdx j) (removeNodeRecords listed call.nodeID))
      | none => s
  | .removed affected readyAt =>
    (s.endPrepare i).openWorkflow call.nodeID affected readyAt now

/-! ### Health rounds -/

/-- A round reconciles the records of a publication, unless its draft is gone or being deleted. -/
def Round.reconcile (round : Round) (publication : SitePublication)
    (converging eligible : String → Bool) (defaultTTL : Nat) : Option (List DesiredRecord) :=
  let site := publication.site
  match (round.drafts.getD []).find? fun draft => draft.id = site.id with
  | some draft =>
    if draft.deleting then none
    else if site.enabled = false then some []
    else desiredRecords site round.nodes converging eligible (effectiveDNSTTL site defaultTTL)
  | none => none

/-- A round clears the records of drafts that are being deleted, or disabled and not published. -/
def Round.clears (round : Round) (draft : Site) : Bool :=
  draft.deleting || (draft.enabled = false &&
    !(round.publications.getD []).any fun publication => publication.site.id = draft.id)

def State.startReconcile (s : State) (site : Site) (desired : List DesiredRecord) : State :=
  { s with reconciles := ⟨site.zoneID, site.id, desired, none⟩ :: s.reconciles }

def State.endReconcile (s : State) (k : Nat) : State :=
  { s with reconciles := s.reconciles.eraseIdx k }

/-- The request `j` of the call `k`. -/
def State.executeRequest (s : State) (k j : Nat) (call : ReconcileCall)
    (requests : List DNSRequest) (request : DNSRequest) (id : String) (now : Time) : State :=
  match s.execute call.zone id now request with
  | some s =>
    { s with
      reconciles := s.reconciles.set k { call with requests := some (requests.eraseIdx j) } }
  | none => s.endReconcile k

def step (s : State) : Action → State
  | .base a => if excluded a then s else { s with base := Retirement.step s.base a }
  | .setDNSDefaultTTL ttl => if 60 ≤ ttl ∧ ttl ≤ 300 then { s with defaultTTL := ttl } else s
  | .prepare nodeID =>
    match s.store.nodes.find? nodeID with
    | some node =>
      if node.status = .draining ∨ node.status = .revoked then
        { s with prepares := ⟨nodeID, .node⟩ :: s.prepares }
      else s
    | none => s
  | .prepareStep i j now =>
    match s.prepares[i]? with
    | some call => s.prepareStep i j call now
    | none => s
  | .prepareEnd i => s.endPrepare i
  | .round => { s with rounds := ⟨s.store.listNodes, none, none⟩ :: s.rounds }
  | .roundDrafts i =>
    match s.rounds[i]? with
    | some round =>
      { s with rounds := s.rounds.set i { round with drafts := some s.store.listSites } }
    | none => s
  | .roundPublications i =>
    match s.rounds[i]? with
    | some round =>
      { s with
        rounds := s.rounds.set i
          { round with publications := some s.store.listSitePublications } }
    | none => s
  | .roundSite i j converging eligible =>
    match s.rounds[i]? with
    | some round =>
      match (round.publications.getD [])[j]? with
      | some publication =>
        match round.reconcile publication converging eligible s.defaultTTL with
        | some desired => s.startReconcile publication.site desired
        | none => s
      | none => s
    | none => s
  | .roundDraft i j =>
    match s.rounds[i]? with
    | some round =>
      match (round.drafts.getD [])[j]? with
      | some draft => if round.clears draft then s.startReconcile draft [] else s
      | none => s
    | none => s
  | .list k =>
    match s.reconciles[k]? with
    | some call =>
      let existing := s.records.filter fun record => record.zone = call.zone
      { s with
        reconciles := s.reconciles.set k
          { call with requests := some (reconcileRequests existing call.siteID call.desired) } }
    | none => s
  | .request k j id now =>
    match s.reconciles[k]? with
    | some call =>
      match call.requests with
      | some requests =>
        match requests[j]? with
        | some request => s.executeRequest k j call requests request id now
        | none => s
      | none => s
    | none => s
  | .reconcileEnd k => s.endReconcile k

end SimpleCdn.Draining
