import Mathlib.Data.List.Sort
import Mathlib.Data.List.Dedup
import SimpleCdn.Domain.Types
import SimpleCdn.Edge.Security
import SimpleCdn.Lib.Checked
import SimpleCdn.Lib.Table
import SimpleCdn.Lib.Text

/-!
# Recording security events

`RecordSecurityEvents` takes a batch in one transaction.  An event that has a row already is
accepted again and changes nothing; any other is checked against the policies, may ban its
address and gets a row.  The first event that fails a check rolls the batch back and is named in
the answer.  Rows are dropped by age and by number.
-/

namespace SimpleCdn

/-- The packages `uuid`, `time`, `strings` and `regexp`, as far as events go through them.
`matchString` is false for a pattern that does not compile. -/
structure Packages where
  parsesUUID : String → Bool
  /-- The instant of an RFC 3339 text, in nanoseconds, and the text that `json.Marshal` writes
  for it. -/
  parseTime : String → Option (Int × String)
  toUpper : String → String
  matchString (pattern path : String) : Bool

/-- An event of the queue of an edge.  The fields that an edge leaves empty are left out. -/
structure SecurityEvent where
  id : String
  policyID : String
  clientIP : String
  host : String
  path : String
  method : String
  action : SecurityPolicyAction
  banDurationSeconds : Int
  observedAt : Int
  observedAtText : String
  deriving DecidableEq, Repr

structure SecurityEventRow where
  id : String
  nodeID : Option String
  policyID : Option String
  rateLimitPolicyID : Option String
  policyName : String
  clientIP : String
  host : String
  path : String
  method : String
  action : SecurityPolicyAction
  observedAt : Int
  banExpiresAt : Option Int
  createdAt : Int
  deriving DecidableEq, Repr

structure SecurityBanRow where
  ip : String
  policyID : Option String
  rateLimitPolicyID : Option String
  policyName : String
  triggerNodeID : Option String
  host : String
  path : String
  method : String
  expiresAt : Int
  createdAt : Int
  updatedAt : Int
  deriving DecidableEq, Repr

instance : Keyed SecurityEventRow String := ⟨SecurityEventRow.id⟩

instance : Keyed SecurityBanRow String := ⟨SecurityBanRow.ip⟩

/-- The tables that `RecordSecurityEvents` reads and writes. -/
structure SecurityStore where
  securityPolicies : List SecurityPolicy
  rateLimitPolicies : List RateLimitPolicy
  events : Table SecurityEventRow
  bans : Table SecurityBanRow

namespace SecurityStore

def maxSecurityEvents : Nat := 100000

def maxSecurityBans : Nat := 50000

def maxSecurityBatch : Nat := 200

def second : Int := 1000000000

def minute : Int := 60 * second

def retention : Int := 7 * 24 * 60 * minute

/-- The instant of the zero `time.Time`. -/
def zeroTime : Int := -62135596800 * second

structure EventPolicy where
  id : String
  name : String
  pattern : String
  action : SecurityPolicyAction
  banDurationSeconds : Int
  rateLimit : Bool
  deriving DecidableEq, Repr

/-- `securityEventPolicyForInput` -/
def securityEventPolicyForInput (db : SecurityStore) (input : SecurityEvent) :
    Except String EventPolicy :=
  match db.securityPolicies.find? fun policy => policy.id = input.policyID with
  | some policy => do
    require (policy.enabled = true ∧ input.action = policy.action)
      "security event does not match an enabled policy"
    return ⟨policy.id, policy.name, policy.pattern, policy.action, policy.banDurationSeconds, false⟩
  | none => do
    let policy ← orError (db.rateLimitPolicies.find? fun policy => policy.id = input.policyID)
      "security event policy no longer exists"
    require (policy.enabled = true ∧ policy.banEnabled = true ∧ input.action = .ban)
      "security event does not match an enabled policy"
    return ⟨policy.id, policy.name, "", .ban, policy.banDurationSeconds, true⟩

/-- The time an event is recorded with: times about now, and later ones, become now. -/
def recordedTime (observedAt createdAt : Int) : Except String Int := do
  if observedAt = zeroTime ∨ createdAt + 2 * minute < observedAt then return createdAt
  else
    require (createdAt - retention ≤ observedAt) "security event is older than the retention window"
    return if createdAt - 10 * minute ≤ observedAt then createdAt else observedAt

/-- The checks of an event without a row. -/
def checkNew (packages : Packages) (db : SecurityStore) (input : SecurityEvent) (createdAt : Int) :
    Except String (EventPolicy × Int) := do
  let policy ← db.securityEventPolicyForInput input
  require (Edge.isPublicIPv4 (Text.trimSpace input.clientIP) = true)
    "security event client IP is not a public IPv4 address"
  let path := Text.trimSpace input.path
  require (path ≠ "" ∧ Text.byteLength path ≤ 2048 ∧ Text.byteLength input.host ≤ 255 ∧
    Text.byteLength input.method ≤ 16) "security event fields are invalid"
  require (policy.rateLimit = true ∨ packages.matchString policy.pattern path = true)
    "security event path does not match its policy"
  let observedAt ← recordedTime input.observedAt createdAt
  return (policy, observedAt)

/-- All checks of an event; nothing when it has a row. -/
def check (packages : Packages) (db : SecurityStore) (nodeID : String) (input : SecurityEvent)
    (createdAt : Int) : Except String (Option (EventPolicy × Int)) := do
  let eventID := Text.trimSpace input.id
  require (packages.parsesUUID eventID = true) "security event ID is invalid"
  match db.events.find? eventID with
  | some row =>
    require (row.nodeID = some nodeID) "security event ID belongs to another node"
    return none
  | none => some <$> checkNew packages db input createdAt

/-- `securityEventPolicyReferences` -/
def policyReferences (policy : EventPolicy) : Option String × Option String :=
  if policy.rateLimit then (none, some policy.id) else (some policy.id, none)

def banExpiry (policy : EventPolicy) (observedAt : Int) : Int :=
  observedAt + policy.banDurationSeconds * second

/-- The ban of an event, over one that the address has; it keeps the later expiry. -/
def banRow (packages : Packages) (nodeID : String) (input : SecurityEvent) (policy : EventPolicy)
    (observedAt createdAt : Int) (existing : Option SecurityBanRow) : SecurityBanRow where
  ip := Text.trimSpace input.clientIP
  policyID := (policyReferences policy).1
  rateLimitPolicyID := (policyReferences policy).2
  policyName := policy.name
  triggerNodeID := some nodeID
  host := Text.trimSpace input.host
  path := Text.trimSpace input.path
  method := packages.toUpper (Text.trimSpace input.method)
  expiresAt :=
    match existing with
    | some ban => max (banExpiry policy observedAt) ban.expiresAt
    | none => banExpiry policy observedAt
  createdAt :=
    match existing with
    | some ban => ban.createdAt
    | none => createdAt
  updatedAt := createdAt

/-- The address is banned, if the policy asks for it and the ban has not expired already. -/
def banAddress (packages : Packages) (db : SecurityStore) (nodeID : String) (input : SecurityEvent)
    (policy : EventPolicy) (observedAt createdAt : Int) : SecurityStore :=
  if policy.action = .ban ∧ createdAt < banExpiry policy observedAt then
    { db with
      bans := db.bans.upsert (banRow packages nodeID input policy observedAt createdAt
        (db.bans.find? (Text.trimSpace input.clientIP))) }
  else db

def eventRow (packages : Packages) (nodeID : String) (input : SecurityEvent) (policy : EventPolicy)
    (observedAt createdAt : Int) : SecurityEventRow where
  id := Text.trimSpace input.id
  nodeID := some nodeID
  policyID := (policyReferences policy).1
  rateLimitPolicyID := (policyReferences policy).2
  policyName := policy.name
  clientIP := Text.trimSpace input.clientIP
  host := Text.trimSpace input.host
  path := Text.trimSpace input.path
  method := packages.toUpper (Text.trimSpace input.method)
  action := policy.action
  observedAt := observedAt
  banExpiresAt := if policy.action = .ban then some (banExpiry policy observedAt) else none
  createdAt := createdAt

/-- One event of a batch. -/
def recordEvent (packages : Packages) (db : SecurityStore) (nodeID : String)
    (input : SecurityEvent) (createdAt : Int) : Except String SecurityStore := do
  match ← db.check packages nodeID input createdAt with
  | none => return db
  | some (policy, observedAt) =>
    return { db.banAddress packages nodeID input policy observedAt createdAt with
      events := db.events.upsert (eventRow packages nodeID input policy observedAt createdAt) }

/-- The events of a batch from the position `index` on. -/
def recordEvents (packages : Packages) (nodeID : String) (createdAt : Int) :
    SecurityStore → Nat → List SecurityEvent → Except (Nat × String) SecurityStore
  | db, _, [] => .ok db
  | db, index, input :: events => do
    let db ← (db.recordEvent packages nodeID input createdAt).mapError fun error => (index, error)
    recordEvents packages nodeID createdAt db (index + 1) events

/-- The rows after the first `limit` in the order. -/
def surplus {ρ : Type} (rows : List ρ) (before : ρ → ρ → Bool) (limit : Nat) : List ρ :=
  if rows.length ≤ limit then [] else (rows.mergeSort before).drop limit

def newerEvent (a b : SecurityEventRow) : Bool :=
  if a.createdAt ≠ b.createdAt then b.createdAt < a.createdAt else b.id ≤ a.id

def newerBan (a b : SecurityBanRow) : Bool :=
  if a.updatedAt ≠ b.updatedAt then b.updatedAt < a.updatedAt else a.ip ≤ b.ip

/-- The three deletions at the end of the transaction. -/
def prune (db : SecurityStore) (createdAt : Int) : SecurityStore :=
  let events := db.events.delete fun row => row.createdAt < createdAt - retention
  { db with
    events := events.delete fun row =>
      (surplus events.rows newerEvent maxSecurityEvents).contains row
    bans := db.bans.delete fun row => (surplus db.bans.rows newerBan maxSecurityBans).contains row }

/-- How `RecordSecurityEvents` fails. -/
inductive RecordError
  | tooLarge
  /-- `SecurityEventInputError` -/
  | input (index : Nat) (error : String)
  deriving DecidableEq, Repr

/-- `RecordSecurityEvents`; it accepts all events of the batch. -/
def recordSecurityEvents (packages : Packages) (db : SecurityStore) (nodeID : String)
    (events : List SecurityEvent) (createdAt : Int) : Except RecordError SecurityStore := do
  if events = [] then return db
  else
    require (events.length ≤ maxSecurityBatch) .tooLarge
    let db ← (recordEvents packages nodeID createdAt db 0 events).mapError fun (index, error) =>
      RecordError.input index error
    return db.prune createdAt

/-- `DeleteSecurityBan` -/
def deleteSecurityBan (db : SecurityStore) (ip : String) : SecurityStore :=
  { db with bans := db.bans.delete fun ban => ban.ip = ip }

/-- `ReconcileSecurity` -/
def reconcileSecurity (db : SecurityStore) (now : Int) : SecurityStore :=
  { db with bans := db.bans.delete fun ban => ban.expiresAt ≤ now }

/-- The policies are changed; references to those that are gone are cleared. -/
def setPolicies (db : SecurityStore) (securityPolicies : List SecurityPolicy)
    (rateLimitPolicies : List RateLimitPolicy) : SecurityStore where
  securityPolicies := securityPolicies
  rateLimitPolicies := rateLimitPolicies
  events := db.events.update (fun _ => true)
    (fun row =>
      { row with
        policyID := row.policyID.filter fun id => securityPolicies.any fun policy => policy.id = id
        rateLimitPolicyID := row.rateLimitPolicyID.filter fun id =>
          rateLimitPolicies.any fun policy => policy.id = id })
    (by intro _; rfl)
  bans := db.bans.update (fun _ => true)
    (fun row =>
      { row with
        policyID := row.policyID.filter fun id => securityPolicies.any fun policy => policy.id = id
        rateLimitPolicyID := row.rateLimitPolicyID.filter fun id =>
          rateLimitPolicies.any fun policy => policy.id = id })
    (by intro _; rfl)

/-- A node is deleted; its events and bans lose their reference to it. -/
def deleteNode (db : SecurityStore) (nodeID : String) : SecurityStore :=
  { db with
    events := db.events.update (fun row => row.nodeID = some nodeID)
      (fun row => { row with nodeID := none }) (by intro _; rfl)
    bans := db.bans.update (fun row => row.triggerNodeID = some nodeID)
      (fun row => { row with triggerNodeID := none }) (by intro _; rfl) }

/-! ### Recording the events of a batch -/

/-- The event has a row. -/
def hasEvent (db : SecurityStore) (id : String) : Bool :=
  (db.events.find? id).isSome

section

variable {packages : Packages} {db db' : SecurityStore} {nodeID : String}
  {input other : SecurityEvent} {id : String} {createdAt : Int}

theorem banAddress_events {policy : EventPolicy} {observedAt : Int} :
    (db.banAddress packages nodeID input policy observedAt createdAt).events = db.events := by
  unfold banAddress
  split
  · rfl
  · rfl

theorem banAddress_policies {policy : EventPolicy} {observedAt : Int} :
    (db.banAddress packages nodeID input policy observedAt createdAt).securityPolicies =
        db.securityPolicies ∧
      (db.banAddress packages nodeID input policy observedAt createdAt).rateLimitPolicies =
        db.rateLimitPolicies := by
  unfold banAddress
  split
  · exact ⟨rfl, rfl⟩
  · exact ⟨rfl, rfl⟩

/-- What an event does: nothing if it has a row, and otherwise it gets one. -/
theorem recordEvent_eq_ok :
    db.recordEvent packages nodeID input createdAt = .ok db' ↔
      (db.check packages nodeID input createdAt = .ok none ∧ db' = db) ∨
        ∃ policy observedAt, db.check packages nodeID input createdAt =
            .ok (some (policy, observedAt)) ∧
          db' = { db.banAddress packages nodeID input policy observedAt createdAt with
            events := db.events.upsert
              (eventRow packages nodeID input policy observedAt createdAt) } := by
  unfold recordEvent
  cases hcheck : db.check packages nodeID input createdAt with
  | error e => simp [bind, Except.bind]
  | ok result =>
    cases result with
    | none => simp [bind, Except.bind, pure, Except.pure, eq_comm]
    | some result =>
      obtain ⟨policy, observedAt⟩ := result
      simp [bind, Except.bind, pure, Except.pure, eq_comm]

theorem check_eq_ok_none :
    db.check packages nodeID input createdAt = .ok none ↔
      packages.parsesUUID (Text.trimSpace input.id) = true ∧
        ∃ row, db.events.find? (Text.trimSpace input.id) = some row ∧ row.nodeID = some nodeID := by
  unfold check
  simp only [bind_eq_ok, require_eq_ok, exists_const]
  refine and_congr_right fun _ => ?_
  cases db.events.find? (Text.trimSpace input.id) with
  | none => simp
  | some row => simp

theorem check_eq_ok_some {policy : EventPolicy} {observedAt : Int} :
    db.check packages nodeID input createdAt = .ok (some (policy, observedAt)) ↔
      packages.parsesUUID (Text.trimSpace input.id) = true ∧
        db.events.find? (Text.trimSpace input.id) = none ∧
          checkNew packages db input createdAt = .ok (policy, observedAt) := by
  unfold check
  simp only [bind_eq_ok, require_eq_ok, exists_const]
  refine and_congr_right fun _ => ?_
  cases db.events.find? (Text.trimSpace input.id) with
  | none => simp
  | some row => simp

/-- An event that is recorded has a row afterwards; other events have one if they had. -/
theorem hasEvent_recordEvent (h : db.recordEvent packages nodeID input createdAt = .ok db') :
    db'.hasEvent id = true ↔ id = Text.trimSpace input.id ∨ db.hasEvent id = true := by
  rcases recordEvent_eq_ok.mp h with ⟨hcheck, rfl⟩ | ⟨policy, observedAt, -, rfl⟩
  · obtain ⟨-, row, hrow, -⟩ := check_eq_ok_none.mp hcheck
    refine ⟨.inr, fun h => ?_⟩
    rcases h with rfl | h
    · simp [hasEvent, hrow]
    · exact h
  · have hkey : key (eventRow packages nodeID input policy observedAt createdAt) =
        Text.trimSpace input.id := rfl
    simp only [hasEvent, Table.find?_upsert, hkey]
    by_cases hsame : Text.trimSpace input.id = id
    · simp [hsame]
    · simp [hsame, Ne.symm hsame]

theorem checkNew_congr (hsecurity : db'.securityPolicies = db.securityPolicies)
    (hrates : db'.rateLimitPolicies = db.rateLimitPolicies) :
    checkNew packages db' other createdAt = checkNew packages db other createdAt := by
  simp only [checkNew, securityEventPolicyForInput, hsecurity, hrates]

/-- Recording an event does not matter to the checks of the others. -/
theorem check_recordEvent_of_ne (h : db.recordEvent packages nodeID input createdAt = .ok db')
    (hne : Text.trimSpace input.id ≠ Text.trimSpace other.id) :
    db'.check packages nodeID other createdAt = db.check packages nodeID other createdAt := by
  rcases recordEvent_eq_ok.mp h with ⟨-, rfl⟩ | ⟨policy, observedAt, -, rfl⟩
  · rfl
  · have hkey : key (eventRow packages nodeID input policy observedAt createdAt) =
        Text.trimSpace input.id := rfl
    have hnew : checkNew packages
        { db.banAddress packages nodeID input policy observedAt createdAt with
          events := db.events.upsert
            (eventRow packages nodeID input policy observedAt createdAt) } other createdAt =
          checkNew packages db other createdAt :=
      checkNew_congr banAddress_policies.1 banAddress_policies.2
    simp only [check, hnew, Table.find?_upsert, hkey, if_neg hne]

/-- Recording an event keeps the others acceptable. -/
theorem check_recordEvent (h : db.recordEvent packages nodeID input createdAt = .ok db')
    {result : Option (EventPolicy × Int)}
    (hcheck : db.check packages nodeID other createdAt = .ok result) :
    ∃ result', db'.check packages nodeID other createdAt = .ok result' := by
  by_cases hsame : Text.trimSpace input.id = Text.trimSpace other.id
  · rcases recordEvent_eq_ok.mp h with ⟨-, rfl⟩ | ⟨policy, observedAt, hinput, rfl⟩
    · exact ⟨result, hcheck⟩
    · -- the event has the row that has just been written
      obtain ⟨hparses, -⟩ := check_eq_ok_some.mp hinput
      rw [hsame] at hparses
      refine ⟨none, check_eq_ok_none.mpr
        ⟨hparses, eventRow packages nodeID input policy observedAt createdAt, ?_, rfl⟩⟩
      rw [← hsame]
      exact (Table.find?_upsert _).trans (if_pos rfl)
  · exact ⟨result, (check_recordEvent_of_ne h hsame).trans hcheck⟩

theorem exists_recordEvent {result : Option (EventPolicy × Int)}
    (hcheck : db.check packages nodeID input createdAt = .ok result) :
    ∃ db', db.recordEvent packages nodeID input createdAt = .ok db' := by
  cases result with
  | none => exact ⟨db, recordEvent_eq_ok.mpr (.inl ⟨hcheck, rfl⟩)⟩
  | some result =>
    exact ⟨_, recordEvent_eq_ok.mpr (.inr ⟨result.1, result.2, hcheck, rfl⟩)⟩

theorem recordEvents_cons_eq_ok {index : Nat} {events : List SecurityEvent} :
    recordEvents packages nodeID createdAt db index (input :: events) = .ok db' ↔
      ∃ db₁, db.recordEvent packages nodeID input createdAt = .ok db₁ ∧
        recordEvents packages nodeID createdAt db₁ (index + 1) events = .ok db' := by
  simp [recordEvents]

/-- A batch of events that all pass their checks is recorded. -/
theorem exists_recordEvents {events : List SecurityEvent} (index : Nat)
    (h : ∀ event ∈ events, ∃ result, db.check packages nodeID event createdAt = .ok result) :
    ∃ db', recordEvents packages nodeID createdAt db index events = .ok db' := by
  induction events generalizing db index with
  | nil => exact ⟨db, rfl⟩
  | cons event events ih =>
    obtain ⟨result, hcheck⟩ := h event List.mem_cons_self
    obtain ⟨db₁, hrecord⟩ := exists_recordEvent hcheck
    have hrest : ∀ other ∈ events, ∃ result,
        db₁.check packages nodeID other createdAt = .ok result := by
      intro other hother
      obtain ⟨result, hcheck⟩ := h other (List.mem_cons_of_mem _ hother)
      exact check_recordEvent hrecord hcheck
    obtain ⟨db', hrecords⟩ := ih (index + 1) hrest
    exact ⟨db', recordEvents_cons_eq_ok.mpr ⟨db₁, hrecord, hrecords⟩⟩

/-- The events of a batch that is recorded have passed their checks. -/
theorem check_of_recordEvents {events : List SecurityEvent} {index : Nat}
    (h : recordEvents packages nodeID createdAt db index events = .ok db')
    (hnodup : (events.map fun event => Text.trimSpace event.id).Nodup) :
    ∀ event ∈ events, ∃ result, db.check packages nodeID event createdAt = .ok result := by
  induction events generalizing db index with
  | nil => exact fun event hevent => absurd hevent List.not_mem_nil
  | cons event events ih =>
    obtain ⟨db₁, hrecord, hrest⟩ := recordEvents_cons_eq_ok.mp h
    obtain ⟨hnotin, hnodup⟩ := List.nodup_cons.mp hnodup
    intro other hother
    rcases List.mem_cons.mp hother with rfl | hother
    · rcases recordEvent_eq_ok.mp hrecord with ⟨hcheck, -⟩ | ⟨policy, observedAt, hcheck, -⟩
      · exact ⟨none, hcheck⟩
      · exact ⟨some (policy, observedAt), hcheck⟩
    · obtain ⟨result, hcheck⟩ := ih hrest hnodup other hother
      refine ⟨result, ?_⟩
      rw [← check_recordEvent_of_ne hrecord, hcheck]
      intro hsame
      exact hnotin (List.mem_map.mpr ⟨other, hother, hsame.symm⟩)

/-- The position is only told in the error. -/
theorem recordEvents_index {events : List SecurityEvent} {index : Nat} (index' : Nat)
    (h : recordEvents packages nodeID createdAt db index events = .ok db') :
    recordEvents packages nodeID createdAt db index' events = .ok db' := by
  induction events generalizing db index index' with
  | nil => exact h
  | cons event events ih =>
    obtain ⟨db₁, hrecord, hrest⟩ := recordEvents_cons_eq_ok.mp h
    exact recordEvents_cons_eq_ok.mpr ⟨db₁, hrecord, ih (index' + 1) hrest⟩

theorem hasEvent_recordEvents {events : List SecurityEvent} {index : Nat}
    (h : recordEvents packages nodeID createdAt db index events = .ok db') :
    db'.hasEvent id = true ↔
      (∃ event ∈ events, id = Text.trimSpace event.id) ∨ db.hasEvent id = true := by
  induction events generalizing db index with
  | nil =>
    obtain rfl := Except.ok.inj h
    simp
  | cons event events ih =>
    obtain ⟨db₁, hrecord, hrest⟩ := recordEvents_cons_eq_ok.mp h
    rw [ih hrest, hasEvent_recordEvent hrecord]
    constructor
    · rintro (⟨other, hother, hid⟩ | hid | hhas)
      · exact .inl ⟨other, List.mem_cons_of_mem _ hother, hid⟩
      · exact .inl ⟨event, List.mem_cons_self, hid⟩
      · exact .inr hhas
    · rintro (⟨other, hother, hid⟩ | hhas)
      · rcases List.mem_cons.mp hother with rfl | hother
        · exact .inr (.inl hid)
        · exact .inl ⟨other, hother, hid⟩
      · exact .inr (.inr hhas)

/-- Events that have a row already can be left out of a batch. -/
theorem recordEvents_filter {events : List SecurityEvent} {index : Nat}
    {replayed : SecurityEvent → Bool}
    (h : recordEvents packages nodeID createdAt db index events = .ok db')
    (hrow : ∀ event ∈ events, replayed event = true →
      db.hasEvent (Text.trimSpace event.id) = true) :
    recordEvents packages nodeID createdAt db index (events.filter fun event => !replayed event) =
      .ok db' := by
  induction events generalizing db index with
  | nil => exact h
  | cons event events ih =>
    obtain ⟨db₁, hrecord, hrest⟩ := recordEvents_cons_eq_ok.mp h
    have hkept : ∀ other ∈ events, replayed other = true →
        db₁.hasEvent (Text.trimSpace other.id) = true :=
      fun other hother hreplayed => (hasEvent_recordEvent hrecord).mpr
        (.inr (hrow other (List.mem_cons_of_mem _ hother) hreplayed))
    have hfiltered := ih hrest hkept
    cases hreplayed : replayed event with
    | true =>
      -- the event has a row, so recording it has changed nothing
      have hsame : db₁ = db := by
        rcases recordEvent_eq_ok.mp hrecord with ⟨-, heq⟩ | ⟨policy, observedAt, hcheck, -⟩
        · exact heq
        · have hhas := hrow event List.mem_cons_self hreplayed
          rw [hasEvent, (check_eq_ok_some.mp hcheck).2.1] at hhas
          cases hhas
      rw [List.filter_cons_of_neg (by simp [hreplayed]), ← hsame]
      exact recordEvents_index index hfiltered
    | false =>
      rw [List.filter_cons_of_pos (by simp [hreplayed])]
      exact recordEvents_cons_eq_ok.mpr ⟨db₁, hrecord, hfiltered⟩

theorem recordSecurityEvents_eq_ok {events : List SecurityEvent} (hne : events ≠ []) :
    recordSecurityEvents packages db nodeID events createdAt = .ok db' ↔
      events.length ≤ maxSecurityBatch ∧
        ∃ db₁, recordEvents packages nodeID createdAt db 0 events = .ok db₁ ∧
          db' = db₁.prune createdAt := by
  rw [recordSecurityEvents, if_neg hne]
  simp only [bind_eq_ok, require_eq_ok, mapError_eq_ok, pure_eq_ok, exists_const]
  simp only [eq_comm]

theorem hasEvent_prune (h : (db.prune createdAt).hasEvent id = true) : db.hasEvent id = true := by
  simp only [hasEvent, prune, Table.find?_delete] at h ⊢
  cases hfind : db.events.find? id with
  | none =>
    rw [hfind] at h
    cases h
  | some row => rfl

/-- The position in the answer is one of the batch. -/
theorem recordEvents_error {events : List SecurityEvent} {index : Nat} {error : Nat × String}
    (h : recordEvents packages nodeID createdAt db index events = .error error) :
    index ≤ error.1 ∧ error.1 < index + events.length := by
  induction events generalizing db index with
  | nil => cases h
  | cons event events ih =>
    rw [recordEvents] at h
    cases hrecord : db.recordEvent packages nodeID event createdAt with
    | error e =>
      rw [hrecord] at h
      obtain rfl := Except.error.inj h
      simp
    | ok db₁ =>
      rw [hrecord] at h
      obtain ⟨hfrom, hto⟩ := ih h
      rw [List.length_cons]
      omega

end

end SecurityStore

end SimpleCdn
