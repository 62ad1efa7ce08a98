import SimpleCdn.Control.Uninstall
import SimpleCdn.SiteCalls.System

/-!
# Uninstalling nodes while sites are edited and published

The calls on sites are those of `SiteCalls`, with publications and edits in flight; the tables of
nodes and uninstall workflows are changed by node operations here, and by nobody else.  The
handlers that issue an uninstall token or complete an uninstall by force read the database step by
step and then run their transaction.  Deleting a node is its transaction: the reads of its handler
only refuse more.

`assigned` lists the sites whose draft has been given the node since the handler began; no step
reads it.
-/

namespace SimpleCdn.Retirement

inductive UninstallKind
  | createCommand
  | forceComplete
  deriving DecidableEq

/-- How far a handler has come. -/
inductive UninstallStage
  | begun
  /-- `buildNodeUninstallStatus` has read the node. -/
  | node
  /-- It has read the workflow. -/
  | job (job : NodeUninstallJob)
  /-- It has read the sites. -/
  | sites (job : NodeUninstallJob) (sites : List Site)
  /-- The prerequisites are satisfied. -/
  | ready

structure UninstallCall where
  nodeID : String
  kind : UninstallKind
  stage : UninstallStage
  assigned : List String

structure State where
  calls : SiteCalls.Calls
  handlers : List UninstallCall

inductive Action
  | site (a : SiteCalls.Action)
  | node (op : NodeOp) (now : Time)
  | deleteNode (nodeID : String)
  | createCommand (nodeID : String)
  | forceComplete (nodeID confirmation : String)
  /-- The handler `i` goes on; `active` is what its reads of nodes find, should it make them. -/
  | handlerStep (i : Nat) (active : String → Bool) (token : String) (now : Time)

def initial : State where
  calls := SiteCalls.initial
  handlers := []

/-- The operations that only the handlers below run. -/
def byHandler : NodeOp → Bool
  | .issueUninstallToken .. | .forceCompleteUninstall .. | .deleteNode .. => true
  | _ => false

/-- The calls on sites leave nodes and their workflows alone. -/
def keepNodes (db : Store) : SiteCalls.Action → SiteCalls.Action
  | .otherTables tables =>
    .otherTables { tables with nodes := db.nodes, nodeUninstallJobs := db.nodeUninstallJobs }
  | a => a

/-- The draft that a call on sites writes, if it does. -/
def writtenDraft (s : SiteCalls.Calls) : SiteCalls.Action → Option Site
  | .createSite id draft zoneID now => (s.store.createSite id draft zoneID now).toOption.map Prod.fst
  | .updateCommit i now =>
    s.updates[i]?.bind fun call =>
      let site := Store.updatedSite call.current call.draft now
      (s.store.updateSiteCommit site).toOption.map fun _ => site
  | _ => none

/-- A draft that has been given the node of a handler. -/
def UninstallCall.note (draft : Option Site) (call : UninstallCall) : UninstallCall :=
  match draft with
  | some site =>
    if site.nodes.contains call.nodeID then { call with assigned := site.id :: call.assigned }
    else call
  | none => call

def State.setStore (s : State) (db : Store) : State :=
  { s with calls := { s.calls with store := db } }

def State.onStore (s : State) (x : Except StoreError Store) : State :=
  match x with
  | .ok db => s.setStore db
  | .error _ => s

/-- A new handler. -/
def State.begin (s : State) (nodeID : String) (kind : UninstallKind) : State :=
  { s with handlers := ⟨nodeID, kind, .begun, []⟩ :: s.handlers }

def UninstallCall.canProceed (call : UninstallCall) (job : NodeUninstallJob)
    (blockers : List NodeUninstallBlocker) (now : Time) : Bool :=
  match call.kind with
  | .createCommand => canGenerateCommand job blockers now
  | .forceComplete => canForceComplete job blockers now

/-- The next stage of a handler, or none if it refuses. -/
def UninstallCall.read (call : UninstallCall) (db : Store) (active : String → Bool) (now : Time) :
    Option UninstallStage :=
  match call.stage with
  | .begun => (db.nodes.find? call.nodeID).map fun _ => .node
  | .node =>
    match db.nodeUninstallJobs.find? call.nodeID with
    | some job => if job.status = .canceled then none else some (.job job)
    | none => none
  | .job job => some (.sites job db.listSites)
  | .sites job sites =>
    let blockers := uninstallBlockers call.nodeID job sites db.listSitePublications active
    if call.canProceed job blockers now then some .ready else none
  | .ready => none

def forcedDetail : String :=
  "forced completion; remote cleanup was not verified"

/-- The transaction of a handler. -/
def UninstallCall.write (call : UninstallCall) (db : Store) (token : String) (now : Time) :
    Except StoreError Store :=
  match call.kind with
  | .createCommand =>
    db.issueNodeUninstallToken call.nodeID token (now + uninstallTokenLifetime) now
  | .forceComplete => db.forceCompleteNodeUninstall call.nodeID forcedDetail now

def State.endHandler (s : State) (i : Nat) : State :=
  { s with handlers := s.handlers.eraseIdx i }

def State.handlerStep (s : State) (i : Nat) (call : UninstallCall) (active : String → Bool)
    (token : String) (now : Time) : State :=
  match call.stage with
  | .ready => (s.endHandler i).onStore (call.write s.calls.store token now)
  | _ =>
    match call.read s.calls.store active now with
    | some stage => { s with handlers := s.handlers.set i { call with stage := stage } }
    | none => s.endHandler i

def step (s : State) : Action → State
  | .site a =>
    let a := keepNodes s.calls.store a
    { calls := SiteCalls.step s.calls a
      handlers := s.handlers.map (UninstallCall.note (writtenDraft s.calls a)) }
  | .node op now => if byHandler op then s else s.onStore (op.apply s.calls.store now)
  | .deleteNode nodeID => s.onStore (s.calls.store.deleteNode nodeID)
  | .createCommand nodeID => s.begin nodeID .createCommand
  | .forceComplete nodeID confirmation =>
    match s.calls.store.nodes.find? nodeID with
    | some node => if confirmation = node.name then s.begin nodeID .forceComplete else s
    | none => s
  | .handlerStep i active token now =>
    match s.handlers[i]? with
    | some call => s.handlerStep i call active token now
    | none => s

end SimpleCdn.Retirement
