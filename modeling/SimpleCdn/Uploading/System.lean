import SimpleCdn.Lib.Transition
import SimpleCdn.Uploading.Encoding

/-!
# Uploading security events

An edge appends the events of its log to a queue and uploads them from the front, one batch at a
time.  It acts on the answer if it gets one; when it does not, the request may have been lost, or
may still arrive later.  The files of the edge do not fail here, and neither does the database.

`recorded` lists the events that have been given a row, and `issued` the identifiers that have
been made; no step decides by `recorded`.
-/

namespace SimpleCdn.Uploading

open Transition SecurityStore

/-- `securityLogEvent` -/
structure SecurityLogEvent where
  timestamp : String
  policyID : String
  action : String
  banSeconds : Int
  clientIP : String
  host : String
  method : String
  path : String
  deriving DecidableEq, Repr

structure EdgeQueue where
  queue : List SecurityEvent
  /-- The batch of the request that the edge waits for. -/
  sent : Option (List SecurityEvent)

structure State where
  store : SecurityStore
  nodes : List String
  edges : String → EdgeQueue
  /-- Requests that their edge has given up, and that may still arrive. -/
  late : List (String × List SecurityEvent)
  recorded : List String
  issued : List String

inductive Action
  | createNode (nodeID : String)
  | deleteNode (nodeID : String)
  | setPolicies (securityPolicies : List SecurityPolicy) (rateLimitPolicies : List RateLimitPolicy)
  | deleteSecurityBan (ip : String)
  | reconcileSecurity (now : Int)
  /-- The edge reads lines of its log; `ids` are the identifiers made for the events. -/
  | collect (nodeID : String) (lines : List SecurityLogEvent) (ids : List String)
  | flush (nodeID : String)
  /-- The edge gets no answer; the request is lost unless it arrives later. -/
  | giveUp (nodeID : String) (arrives : Bool)
  /-- The control plane handles the request that the edge waits for. -/
  | serve (nodeID : String) (now : Int)
  /-- The control plane handles the request `k` of those given up. -/
  | serveLate (k : Nat) (now : Int)

def initial : State where
  store := ⟨[], [], ∅, ∅⟩
  nodes := []
  edges := fun _ => ⟨[], none⟩
  late := []
  recorded := []
  issued := []

/-! ### The edge -/

def securityBanDurations : List Int := [3600, 21600, 43200, 86400, 259200, 604800]

def securityAction : String → Option SecurityPolicyAction
  | "block" => some .block
  | "ban" => some .ban
  | _ => none

/-- `decodeSecurityLog`, of a line that has been decoded as JSON, with the identifier it makes. -/
def decodeSecurityLog (packages : Packages) (raw : SecurityLogEvent) (id : String) :
    Option SecurityEvent := do
  guard (packages.parsesUUID raw.policyID = true)
  let clientIP := Text.trimSpace raw.clientIP
  guard (Edge.isPublicIPv4 clientIP = true)
  let action ← securityAction raw.action
  guard (action = .block ∨ raw.banSeconds ∈ securityBanDurations)
  let banSeconds := if action = .block then 0 else raw.banSeconds
  let (observedAt, observedAtText) ← packages.parseTime raw.timestamp
  let path := Text.trimSpace raw.path
  guard (path ≠ "" ∧ Text.byteLength path ≤ 2048 ∧ Text.byteLength raw.host ≤ 255 ∧
    Text.byteLength raw.method ≤ 16)
  return {
    id := id
    policyID := raw.policyID
    clientIP := clientIP
    host := Text.trimSpace raw.host
    path := path
    method := packages.toUpper (Text.trimSpace raw.method)
    action := action
    banDurationSeconds := banSeconds
    observedAt := observedAt
    observedAtText := observedAtText }

/-- The events of the lines; a line that is refused uses up an identifier, too. -/
def collected (packages : Packages) (lines : List SecurityLogEvent) (ids : List String) :
    List SecurityEvent :=
  (lines.zip ids).filterMap fun (raw, id) => decodeSecurityLog packages raw id

/-- The queue keeps the newest events. -/
def enqueue (queue events : List SecurityEvent) : List SecurityEvent :=
  let queued := queue ++ events
  queued.drop (queued.length - Edge.securityEventQueueLimit)

/-- What `flush` does to the queue when it gets an answer. -/
def afterAnswer (queue : List SecurityEvent) (count : Nat) :
    Edge.UploadAnswer → List SecurityEvent
  | .accepted => queue.drop count
  | .invalidEvent index =>
    if 0 ≤ index ∧ index < count then queue.eraseIdx index.toNat else queue
  | .refused => queue

def State.setEdge (s : State) (nodeID : String) (edge : EdgeQueue) : State :=
  { s with edges := fun n => if n = nodeID then edge else s.edges n }

/-! ### The control plane -/

/-- The identifiers of the events that have no row. -/
def newEventIDs (db : SecurityStore) (events : List SecurityEvent) : List String :=
  ((events.map fun event => Text.trimSpace event.id).filter fun id =>
    (db.events.find? id).isNone).dedup

/-- `edgeSecurityEvents`, behind `requireEdge` and `readJSON`. -/
def State.handle (packages : Packages) (s : State) (nodeID : String)
    (events : List SecurityEvent) (now : Int) : Edge.UploadAnswer × State :=
  if nodeID ∉ s.nodes then (.refused, s)
  else if maxRequestBody < bytes (jsonBatch events) then (.refused, s)
  else if events.length = 0 ∨ maxSecurityBatch < events.length then (.refused, s)
  else
    match recordSecurityEvents packages s.store nodeID events now with
    | .ok db =>
      (.accepted, { s with store := db, recorded := newEventIDs s.store events ++ s.recorded })
    | .error (.input index _) => (.invalidEvent index, s)
    | .error .tooLarge => (.refused, s)

/-- The control plane handles the request of the edge, which acts on the answer. -/
def State.serve (packages : Packages) (s : State) (nodeID : String) (events : List SecurityEvent)
    (now : Int) : State :=
  let (answer, t) := s.handle packages nodeID events now
  t.setEdge nodeID ⟨afterAnswer (s.edges nodeID).queue events.length answer, none⟩

def step (packages : Packages) (s : State) : Action → State
  | .createNode nodeID => { s with nodes := nodeID :: s.nodes }
  | .deleteNode nodeID =>
    { s with
      store := s.store.deleteNode nodeID
      nodes := s.nodes.filter fun n => n ≠ nodeID }
  | .setPolicies securityPolicies rateLimitPolicies =>
    { s with store := s.store.setPolicies securityPolicies rateLimitPolicies }
  | .deleteSecurityBan ip => { s with store := s.store.deleteSecurityBan ip }
  | .reconcileSecurity now => { s with store := s.store.reconcileSecurity now }
  | .collect nodeID lines ids =>
    match (s.edges nodeID).sent with
    | none =>
      if lines.length = ids.length ∧ ids.Nodup ∧ ∀ id ∈ ids,
          id ∉ s.issued ∧ packages.parsesUUID id = true ∧ Text.trimSpace id = id then
        { s with issued := ids ++ s.issued }.setEdge nodeID
          ⟨enqueue (s.edges nodeID).queue (collected packages lines ids), none⟩
      else s
    | some _ => s
  | .flush nodeID =>
    let edge := s.edges nodeID
    match edge.sent with
    | none =>
      if edge.queue = [] then s
      else s.setEdge nodeID
        { edge with sent := some (edge.queue.take Edge.securityUploadLimit) }
    | some _ => s
  | .giveUp nodeID arrives =>
    match (s.edges nodeID).sent with
    | some events =>
      { s with late := if arrives then (nodeID, events) :: s.late else s.late }.setEdge nodeID
        { s.edges nodeID with sent := none }
    | none => s
  | .serve nodeID now =>
    match (s.edges nodeID).sent with
    | some events => s.serve packages nodeID events now
    | none => s
  | .serveLate k now =>
    match s.late[k]? with
    | some (nodeID, events) =>
      { (s.handle packages nodeID events now).2 with late := s.late.eraseIdx k }
    | none => s

end SimpleCdn.Uploading
