import Mathlib.Data.List.Sort
import SimpleCdn.Lib.Checked
import SimpleCdn.Lib.Transition

/-!
# The security manager of an edge

`SecurityManager` reads ban and block events from the log of Nginx, keeps the local bans and the
queue of events in files, uploads the events and takes the fleet's bans from the control plane.
After each change it gives the bans to the firewall.  `firewallDirty` remembers a firewall command
that failed.

An operation takes what happens to its files, requests and commands, and its readings of the
clock, as an input.  What it has read from the log is an input too.  It returns early with the
state it has reached, so every operation is a computation in `Except Manager`.
-/

namespace SimpleCdn.Edge

open Transition

def securityEventQueueLimit : Nat := 10000

def securityLocalBanLimit : Nat := 50000

def securityUploadLimit : Nat := 200

/-- One second of the clock, which counts nanoseconds. -/
def second : Int := 1000000000

inductive SecurityPolicyAction
  | block
  | ban
  deriving DecidableEq, Repr

/-- An event as `decodeSecurityLog` reads it from a line of the log. -/
structure LoggedEvent where
  policyID : String
  clientIP : String
  host : String
  path : String
  method : String
  action : SecurityPolicyAction
  banDurationSeconds : Int
  observedAt : Int
  deriving DecidableEq, Repr

/-- An event with the fresh identifier it gets when it is read. -/
structure SecurityEvent extends LoggedEvent where
  id : Nat
  deriving DecidableEq, Repr

structure SecurityBan where
  ip : String
  policyID : String
  host : String
  path : String
  method : String
  expiresAt : Int
  createdAt : Int
  updatedAt : Int
  deriving DecidableEq, Repr

structure LocalSecurityBan extends SecurityBan where
  pending : Bool
  deriving DecidableEq, Repr

/-- A ban of the control plane's list. -/
structure EdgeSecurityBan where
  ip : String
  expiresAt : Int
  deriving DecidableEq, Repr

/-- A ban event whose ban has been saved, with the expiry it asks for.  `given` says that the
firewall has been given a list since. -/
structure ObservedBan where
  id : Nat
  ip : String
  expiresAt : Int
  given : Bool
  deriving DecidableEq, Repr

/-- The files of the manager, the firewall and the flag of the process.  `installed` is what the
last firewall command that went through installed, `given` what the last one was given.  No
operation decides by the last fields: the latest time read, the next fresh identifier, the bans
observed, the events the control plane has accepted, and whether more addresses have been banned
at once than the limit. -/
structure Manager where
  bans : List LocalSecurityBan
  queue : List SecurityEvent
  offset : Option Int
  installed : List SecurityBan
  given : List SecurityBan
  firewallDirty : Bool
  clock : Int
  nextID : Nat
  observed : List ObservedBan
  accepted : List Nat
  overflowed : Bool
  deriving DecidableEq, Repr

/-! ### Lists of bans -/

def activeLocalBans (bans : List LocalSecurityBan) (now : Int) : List LocalSecurityBan :=
  bans.filter fun ban => now < ban.expiresAt

def localBanValues (bans : List LocalSecurityBan) : List SecurityBan :=
  bans.map LocalSecurityBan.toSecurityBan

/-- `byIP[ban.IP] = ban`, with the values in the order of `localBanMapValues`. -/
def setBan (byIP : List LocalSecurityBan) (ban : LocalSecurityBan) : List LocalSecurityBan :=
  (byIP.filter fun other => other.ip ≠ ban.ip).orderedInsert (fun a b => a.ip ≤ b.ip) ban

/-- A map with the given bans put in one after the other. -/
def setBans (byIP bans : List LocalSecurityBan) : List LocalSecurityBan :=
  bans.foldl setBan byIP

/-- The order in which `limitLocalSecurityBans` prefers bans. -/
def outlasts (a b : LocalSecurityBan) : Bool :=
  if a.expiresAt ≠ b.expiresAt then b.expiresAt < a.expiresAt
  else if a.updatedAt ≠ b.updatedAt then b.updatedAt < a.updatedAt
  else a.ip ≤ b.ip

def limitLocalSecurityBans (values : List LocalSecurityBan) : List LocalSecurityBan :=
  if values.length ≤ securityLocalBanLimit then values
  else ((values.mergeSort outlasts).take securityLocalBanLimit).mergeSort fun a b => a.ip ≤ b.ip

def equivalentLocalBanSets : List LocalSecurityBan → List LocalSecurityBan → Bool
  | [], [] => true
  | a :: left, b :: right =>
    a.ip = b.ip && a.pending = b.pending && a.expiresAt = b.expiresAt &&
      equivalentLocalBanSets left right
  | _, _ => false

/-! ### Addresses -/

/-- A field of an IPv4 address. -/
def octet (digits : List Char) : Option Nat :=
  if digits.all Char.isDigit ∧ 0 < digits.length ∧ digits.length ≤ 3 ∧
      (digits.head? = some '0' → digits.length = 1) then
    some (digits.foldl (fun n c => 10 * n + (c.toNat - '0'.toNat)) 0)
  else none

/-- `netip.ParseAddr` with `Is4`, `IsGlobalUnicast` and not `IsPrivate`; such an address is its
own `String`. -/
def isPublicIPv4 (ip : String) : Bool :=
  match (ip.toList.splitOn '.').mapM octet with
  | some [a, b, c, d] =>
    a ≤ 255 && b ≤ 255 && c ≤ 255 && d ≤ 255 &&
      !(a = 0 && b = 0 && c = 0 && d = 0) && !(a = 255 && b = 255 && c = 255 && d = 255) &&
      a ≠ 127 && !(224 ≤ a && a ≤ 239) && !(a = 169 && b = 254) &&
      a ≠ 10 && !(a = 172 && 16 ≤ b && b ≤ 31) && !(a = 192 && b = 168)
  | _ => false

/-! ### Inputs -/

structure InitializeInput where
  directoryMade : Bool
  stateLoaded : Bool
  stateSaved : Bool
  firewall : Bool
  now : Int

structure SyncInput where
  /-- The bans of the control plane, if the request went through. -/
  remote : Option (List EdgeSecurityBan)
  stateLoaded : Bool
  stateSaved : Bool
  firewall : Bool
  now : Int

/-- The control plane's answer to an upload. -/
inductive UploadAnswer
  | accepted
  /-- Status 4xx with `invalid_event_index`. -/
  | invalidEvent (index : Int)
  | refused

structure FlushInput where
  queueLoaded : Bool
  /-- Nothing when the request could not be made or no answer came. -/
  answer : Option UploadAnswer
  queueSaved : Bool
  stateLoaded : Bool
  stateSaved : Bool
  sync : SyncInput

structure CollectInput where
  /-- The events of the lines read and the position after them (nothing when there is no log). -/
  log : Option (List LoggedEvent × Option Int)
  queueLoaded : Bool
  queueSaved : Bool
  stateLoaded : Bool
  stateSaved : Bool
  offsetSaved : Bool
  stateReloaded : Bool
  firewall : Bool
  now : Int
  flush : FlushInput

/-! ### Operations -/

namespace Manager

/-- The clock is read. -/
def readClock (m : Manager) (now : Int) : Manager :=
  { m with clock := max m.clock now }

def replaceFirewall (m : Manager) (bans : List SecurityBan) (ok : Bool) : Manager :=
  { m with
    installed := if ok then bans else m.installed
    given := bans
    firewallDirty := !ok
    observed := m.observed.map fun ban => { ban with given := true } }

/-- The bans go through `limitLocalSecurityBans`. -/
def limited (m : Manager) (values : List LocalSecurityBan) : Manager :=
  { m with overflowed := m.overflowed || decide (securityLocalBanLimit < values.length) }

/-- `initialize`, in a new process. -/
def initializeBans (m : Manager) (i : InitializeInput) : Except Manager Manager := do
  let m := { m.readClock i.now with firewallDirty := false }
  require (i.directoryMade = true) m
  require (i.stateLoaded = true) m
  let m := m.limited (activeLocalBans m.bans i.now)
  require (i.stateSaved = true) m
  let m := { m with bans := limitLocalSecurityBans (activeLocalBans m.bans i.now) }
  pure (m.replaceFirewall (localBanValues m.bans) i.firewall)

/-- The events read, with fresh identifiers. -/
def stamp (m : Manager) (events : List LoggedEvent) : List SecurityEvent :=
  events.mapIdx fun index event => { event with id := m.nextID + index }

/-- The events read are put in the queue, which keeps the newest. -/
def enqueue (m : Manager) (events : List SecurityEvent) (i : CollectInput) :
    Except Manager Manager := do
  if events = [] then pure m
  else
    require (i.queueLoaded = true) m
    let queued := m.queue ++ events
    require (i.queueSaved = true) m
    pure { m with queue := queued.drop (queued.length - securityEventQueueLimit) }

def containsSecurityBan (events : List SecurityEvent) : Bool :=
  events.any fun event => event.action = .ban

/-- The expiry a ban event asks for. -/
def requestedExpiry (now : Int) (event : SecurityEvent) : Int :=
  now + event.banDurationSeconds * second

/-- The ban of an event, with the expiry of one that lasts longer. -/
def localBanOf (now : Int) (existing : Option LocalSecurityBan) (event : SecurityEvent) :
    LocalSecurityBan :=
  let candidate : LocalSecurityBan :=
    { ip := event.clientIP, policyID := event.policyID, host := event.host, path := event.path
      method := event.method, expiresAt := requestedExpiry now event, createdAt := now
      updatedAt := now, pending := true }
  match existing with
  | none => candidate
  | some ban =>
    if candidate.expiresAt < ban.expiresAt then
      { candidate with expiresAt := ban.expiresAt, createdAt := ban.createdAt }
    else candidate

/-- An event put into the map of bans. -/
def mergeEvent (now : Int) (byIP : List LocalSecurityBan) (event : SecurityEvent) :
    List LocalSecurityBan :=
  if event.action = .ban then
    setBan byIP (localBanOf now (byIP.find? fun ban => ban.ip = event.clientIP) event)
  else byIP

/-- The bans by address after the events. -/
def mergeLocalBans (bans : List LocalSecurityBan) (events : List SecurityEvent) (now : Int) :
    List LocalSecurityBan :=
  events.foldl (mergeEvent now) (setBans [] (activeLocalBans bans now))

/-- The bans of the events, as they are observed. -/
def observe (events : List SecurityEvent) (now : Int) : List ObservedBan :=
  (events.filter fun event => event.action = .ban).map fun event =>
    { id := event.id, ip := event.clientIP, expiresAt := requestedExpiry now event, given := false }

/-- What `persistLocalBans` saves. -/
def savedLocalBans (m : Manager) (events : List SecurityEvent) (now : Int) :
    List LocalSecurityBan :=
  limitLocalSecurityBans (mergeLocalBans m.bans events now)

def persistLocalBans (m : Manager) (events : List SecurityEvent) (i : CollectInput) :
    Except Manager Manager := do
  require (i.stateLoaded = true) m
  let m := m.limited (mergeLocalBans m.bans events i.now)
  require (i.stateSaved = true) m
  pure
    { m with
      bans := m.savedLocalBans events i.now
      observed := m.observed ++ observe events i.now }

/-- The bans of the events are saved, if there are any. -/
def saveBans (m : Manager) (events : List SecurityEvent) (i : CollectInput) :
    Except Manager Manager :=
  if containsSecurityBan events then m.persistLocalBans events i else pure m

/-- The position in the log is saved, if there is a log. -/
def saveOffset (m : Manager) (position : Option Int) (i : CollectInput) :
    Except Manager Manager :=
  match position with
  | none => pure m
  | some position => do
    require (i.offsetSaved = true) m
    pure { m with offset := some position }

/-- The end of `collectAndFlush` before the upload: the firewall gets the bans that have been
saved, or a command that failed is tried again. -/
def enforce (m : Manager) (events : List SecurityEvent) (i : CollectInput) :
    Except Manager Manager := do
  if containsSecurityBan events ∨ m.firewallDirty then
    require (containsSecurityBan events ∨ i.stateReloaded) m
    let bans := if containsSecurityBan events then m.bans else activeLocalBans m.bans i.now
    let m := m.replaceFirewall (localBanValues bans) i.firewall
    require (i.firewall = true) m
    pure m
  else pure m

/-- `collectAndFlush` up to the upload. -/
def collect (m : Manager) (i : CollectInput) : Except Manager Manager :=
  match i.log with
  | none => .error m
  | some (logged, position) => do
    let events := m.stamp logged
    let m := { m.readClock i.now with nextID := m.nextID + logged.length }
    let m ← m.enqueue events i
    let m ← m.saveBans events i
    let m ← m.saveOffset position i
    m.enforce events i

/-- The events of one upload. -/
def batch (m : Manager) : List SecurityEvent :=
  m.queue.take securityUploadLimit

/-- `clearPending`: the bans of the addresses in the accepted events. -/
def clearPending (m : Manager) (events : List SecurityEvent) (i : FlushInput) :
    Except Manager Manager := do
  require (i.stateLoaded = true) m
  require (i.stateSaved = true) m
  pure
    { m with
      bans := m.bans.map fun ban =>
        if events.any fun event => event.clientIP = ban.ip then { ban with pending := false }
        else ban }

/-- The bans before a list of the control plane. -/
def previousBans (m : Manager) (now : Int) : List LocalSecurityBan :=
  limitLocalSecurityBans (setBans [] (activeLocalBans m.bans now))

/-- A ban of the control plane as a local one. -/
def remoteBan (ban : EdgeSecurityBan) : LocalSecurityBan :=
  { ip := ban.ip, policyID := "", host := "", path := "", method := ""
    expiresAt := ban.expiresAt, createdAt := 0, updatedAt := 0, pending := false }

/-- The bans of the control plane with the pending local ones over them. -/
def mergeRemoteBans (m : Manager) (remote : List EdgeSecurityBan) (now : Int) :
    List LocalSecurityBan :=
  let accepted := remote.filter fun ban => isPublicIPv4 ban.ip ∧ now < ban.expiresAt
  setBans (setBans [] (accepted.map remoteBan)) ((m.previousBans now).filter (·.pending))

def syncBans (m : Manager) (i : SyncInput) : Except Manager Manager :=
  match i.remote with
  | none => .error m
  | some remote => do
    require (i.stateLoaded = true) m
    let m := m.readClock i.now
    let previous := m.previousBans i.now
    let bans := limitLocalSecurityBans (m.mergeRemoteBans remote i.now)
    let m := (m.limited (setBans [] (activeLocalBans m.bans i.now))).limited
      (m.mergeRemoteBans remote i.now)
    if m.bans.length = previous.length ∧ equivalentLocalBanSets previous bans ∧
        !m.firewallDirty then
      pure m
    else
      require (i.stateSaved = true) m
      let m := { m with bans := bans }
      pure (m.replaceFirewall (localBanValues m.bans) i.firewall)

def flush (m : Manager) (i : FlushInput) : Except Manager Manager := do
  require (i.queueLoaded = true) m
  if m.queue = [] then pure m
  else
    match i.answer with
    | some .accepted =>
      let events := m.batch
      let m := { m with accepted := m.accepted ++ events.map fun event => event.id }
      require (i.queueSaved = true) m
      let m := { m with queue := m.queue.drop securityUploadLimit }
      let m ← m.clearPending events i
      m.syncBans i.sync
    | some (.invalidEvent index) =>
      if 0 ≤ index ∧ index < m.batch.length ∧ i.queueSaved then
        .error { m with queue := m.queue.eraseIdx index.toNat }
      else .error m
    | _ => .error m

def collectAndFlush (m : Manager) (i : CollectInput) : Except Manager Manager := do
  let m ← m.collect i
  m.flush i.flush

end Manager

/-- An operation of the manager.  A new process begins with `initialize`. -/
inductive Operation
  | restart (i : InitializeInput)
  | collectAndFlush (i : CollectInput)
  | syncBans (i : SyncInput)

def step (m : Manager) : Operation → Manager
  | .restart i => returned (m.initializeBans i)
  | .collectAndFlush i => returned (m.collectAndFlush i)
  | .syncBans i => returned (m.syncBans i)

/-- An edge before its first start. -/
def fresh (now : Int) : Manager where
  bans := []
  queue := []
  offset := none
  installed := []
  given := []
  firewallDirty := false
  clock := now
  nextID := 0
  observed := []
  accepted := []
  overflowed := false

/-! ### Small inputs -/

section Example

/-- A ban of one hour. -/
def smallBan : LoggedEvent where
  policyID := "4a5f0c5e-0000-4000-8000-000000000001"
  clientIP := "8.8.8.8"
  host := "cdn.example.test"
  path := "/.env"
  method := "GET"
  action := .ban
  banDurationSeconds := 3600
  observedAt := 0

def noSync : SyncInput where
  remote := none
  stateLoaded := true
  stateSaved := true
  firewall := true
  now := 0

def noUpload : FlushInput where
  queueLoaded := true
  answer := none
  queueSaved := true
  stateLoaded := true
  stateSaved := true
  sync := noSync

/-- A collection of one ban at time 1, without an upload. -/
def smallCollect : CollectInput where
  log := some ([smallBan], some 150)
  queueLoaded := true
  queueSaved := true
  stateLoaded := true
  stateSaved := true
  offsetSaved := true
  stateReloaded := true
  firewall := true
  now := 1
  flush := noUpload

end Example

end SimpleCdn.Edge
