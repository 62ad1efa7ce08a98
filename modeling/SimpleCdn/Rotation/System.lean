import Mathlib.Logic.Function.Basic
import SimpleCdn.Lib.Transition
import SimpleCdn.Store.NodeOps

/-!
# Client certificates

An edge enrolls with a token and renews with the certificate it holds.  The two exchanges run
between the edge's files and the row of its node: the control plane authenticates the request,
signs a certificate, makes its fingerprint the accepted one and answers; the edge stores the
answer.  Requests, running handlers and responses are kept in lists; any of them may be lost, a
file may fail to be written, and either side may restart.  An edge has one exchange at a time,
and drops the answer to an exchange it has given up.

The machine of a node is named after the node whose tokens it is given.  `signed` lists the
certificates with the node in their subject.  `issued` lists the certificates issued to a node
and not withdrawn: revoking or uninstalling a node clears its fingerprint and withdraws them all.
-/

namespace SimpleCdn.Rotation

/-- A client certificate, named by its fingerprint. -/
abbrev Fingerprint := String

/-- The files of an edge, and the exchange it waits for. -/
structure Edge where
  certificate : Option Fingerprint
  caFile : Bool
  waiting : Option Nat

inductive Credential
  | certificate (fingerprint : Fingerprint)
  | token (token : String)
  deriving DecidableEq

structure Request where
  exchange : Nat
  edge : String
  credential : Credential

/-- A handler that has authenticated its request. -/
structure Handler where
  exchange : Nat
  edge : String
  nodeID : String
  credential : Credential

structure Response where
  exchange : Nat
  edge : String
  certificate : Fingerprint

structure State where
  store : Store
  edges : String → Edge
  nextExchange : Nat
  requests : List Request
  handlers : List Handler
  responses : List Response
  signed : List (String × Fingerprint)
  issued : List (String × Fingerprint)

inductive Action
  | node (op : NodeOp) (now : Time)
  /-- `EnsureEnrollment`, with a file missing. -/
  | sendEnroll (edge token : String)
  /-- `renewIfNeeded`, with a certificate close to its end. -/
  | sendRenew (edge : String)
  | receive (i : Nat) (now : Time)
  | handle (i : Nat) (fingerprint : Fingerprint) (now : Time)
  | deliver (i : Nat)
  /-- The answer arrives and the certificate file cannot be written. -/
  | certificateWriteFails (i : Nat)
  /-- The certificate is written and the CA file cannot be written. -/
  | caWriteFails (i : Nat)
  | loseRequest (i : Nat)
  | loseResponse (i : Nat)
  /-- The edge restarts, or its request times out. -/
  | giveUp (edge : String)
  /-- The machine is installed anew. -/
  | reinstall (edge : String)
  | controlRestart

def initial : State where
  store := Store.empty
  edges := fun _ => ⟨none, false, none⟩
  nextExchange := 0
  requests := []
  handlers := []
  responses := []
  signed := []
  issued := []

/-- The certificates that are still not withdrawn: those of nodes with a fingerprint. -/
def stillIssued (db : Store) (issued : List (String × Fingerprint)) :
    List (String × Fingerprint) :=
  issued.filter fun entry => ((db.nodes.find? entry.1).bind Node.certFingerprint).isSome

def State.setEdge (s : State) (edge : String) (f : Edge → Edge) : State :=
  { s with edges := Function.update s.edges edge (f (s.edges edge)) }

theorem State.setEdge_edges (s : State) (edge n : String) (f : Edge → Edge) :
    (s.setEdge edge f).edges n = if n = edge then f (s.edges edge) else s.edges n := by
  simp only [State.setEdge, Function.update_apply]

/-- The edge sends a request and waits for its answer. -/
def State.send (s : State) (edge : String) (credential : Credential) : State :=
  { s with
    nextExchange := s.nextExchange + 1
    requests := ⟨s.nextExchange, edge, credential⟩ :: s.requests }.setEdge edge
      fun files => { files with waiting := some s.nextExchange }

/-- All three files are there. -/
def Edge.enrolled (edge : Edge) : Bool :=
  edge.certificate.isSome && edge.caFile

/-- `edgeMTLS` or `ConsumeEnrollmentToken`: whose request it is. -/
def authenticate (db : Store) (credential : Credential) (now : Time) :
    Except StoreError (String × Store) :=
  match credential with
  | .certificate fingerprint => do
    let nodeID ← db.nodeIDByFingerprint fingerprint
    return (nodeID, db)
  | .token token => db.consumeEnrollmentToken token now

/-- `SignRenewal` looks at the subject of the certificate it renews; `SignCSR` does not. -/
def mayRenew (s : State) (handler : Handler) : Bool :=
  match handler.credential with
  | .certificate fingerprint => s.signed.contains (handler.nodeID, fingerprint)
  | .token _ => true

/-- The rest of the `renew` and `enroll` handlers. -/
def State.sign (s : State) (handler : Handler) (fingerprint : Fingerprint) (now : Time) : State :=
  if mayRenew s handler && !(s.signed.map Prod.snd).contains fingerprint then
    let s := { s with signed := (handler.nodeID, fingerprint) :: s.signed }
    match s.store.setNodeCertificate handler.nodeID fingerprint now with
    | .ok db =>
      { s with
        store := db
        issued := (handler.nodeID, fingerprint) :: s.issued
        responses := ⟨handler.exchange, handler.edge, fingerprint⟩ :: s.responses }
    | .error _ => s
  else s

/-- The answer `response` arrives; an edge that waits for it stores what `write` says. -/
def State.arrive (s : State) (i : Nat) (response : Response) (write : Edge → Edge) : State :=
  let s := { s with responses := s.responses.eraseIdx i }
  if (s.edges response.edge).waiting = some response.exchange then
    s.setEdge response.edge fun files => { write files with waiting := none }
  else s

def step (s : State) : Action → State
  | .node op now =>
    match op.apply s.store now with
    | .ok db => { s with store := db, issued := stillIssued db s.issued }
    | .error _ => s
  | .sendEnroll edge token =>
    if (s.edges edge).waiting.isNone && !(s.edges edge).enrolled then s.send edge (.token token)
    else s
  | .sendRenew edge =>
    match (s.edges edge).certificate with
    | some fingerprint =>
      if (s.edges edge).waiting.isNone && (s.edges edge).enrolled then
        s.send edge (.certificate fingerprint)
      else s
    | none => s
  | .receive i now =>
    match s.requests[i]? with
    | some request =>
      let s := { s with requests := s.requests.eraseIdx i }
      match authenticate s.store request.credential now with
      | .ok (nodeID, db) =>
        -- a machine is only given the tokens of its own node
        if nodeID = request.edge then
          { s with
            store := db
            handlers := ⟨request.exchange, request.edge, nodeID, request.credential⟩ :: s.handlers }
        else s
      | .error _ => s
    | none => s
  | .handle i fingerprint now =>
    match s.handlers[i]? with
    | some handler => { s with handlers := s.handlers.eraseIdx i }.sign handler fingerprint now
    | none => s
  | .deliver i =>
    match s.responses[i]? with
    | some response => s.arrive i response fun files =>
        { files with certificate := some response.certificate, caFile := true }
    | none => s
  | .certificateWriteFails i =>
    match s.responses[i]? with
    | some response => s.arrive i response id
    | none => s
  | .caWriteFails i =>
    match s.responses[i]? with
    | some response => s.arrive i response fun files =>
        { files with certificate := some response.certificate }
    | none => s
  | .loseRequest i => { s with requests := s.requests.eraseIdx i }
  | .loseResponse i => { s with responses := s.responses.eraseIdx i }
  | .giveUp edge => s.setEdge edge fun files => { files with waiting := none }
  | .reinstall edge => s.setEdge edge fun _ => ⟨none, false, none⟩
  | .controlRestart => { s with requests := [], handlers := [] }

end SimpleCdn.Rotation
