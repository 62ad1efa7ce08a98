import SimpleCdn.Lib.Checked
import SimpleCdn.Lib.Table
import SimpleCdn.Lib.Text

/-!
# Cloudflare

`Reconcile` makes the A records that an owner has in a zone the desired ones.  It lists the zone,
keeps the records whose comment has the owner's prefix apart from all others, and then sends one
request after the other: an update or a create for each desired record that needs one, and after
these a delete for each record of the owner that is not desired.  Both loops range over maps, in
any order.

The provider refuses a request after which two A records would share name and content.  An answer
may be an error although the request was carried out.
-/

namespace SimpleCdn.Cloudflare

/-- `ManagedRecordPrefix` -/
def managedRecordPrefix : String := "cdn-platform:"

structure DNSRecord where
  id : String
  type : String
  name : String
  content : String
  comment : String
  ttl : Int
  proxied : Bool
  deriving DecidableEq, Repr

/-- `canonicalRecordName`, of a name in ASCII. -/
def canonicalRecordName (name : String) : String :=
  (Text.trimSuffix (Text.trimSpace name) ".").toLower

/-- `recordIsA` -/
def recordIsA (record : DNSRecord) : Bool :=
  record.type = "" || record.type = "A" || record.type = "a"

/-- `recordTypeLabel` -/
def recordTypeLabel (record : DNSRecord) : String :=
  if record.type = "" then "A" else record.type

/-- What the source joins with NUL bytes, which none of the three contains. -/
structure RecordKey where
  name : String
  content : String
  comment : String
  deriving DecidableEq, Repr

/-- `recordKey` -/
def recordKey (record : DNSRecord) : RecordKey :=
  ⟨canonicalRecordName record.name, record.content, record.comment⟩

/-- What no two A records of a zone share. -/
def RecordKey.address (key : RecordKey) : String × String :=
  (key.name, key.content)

def address (record : DNSRecord) : String × String :=
  (recordKey record).address

def ownerPrefix (owner : String) : String :=
  managedRecordPrefix ++ owner ++ ";"

/-- The comment has the owner's prefix. -/
def DNSRecord.carries (record : DNSRecord) (owner : String) : Bool :=
  Text.hasPrefix record.comment (ownerPrefix owner)

/-- The record is the owner's: an A record with the prefix. -/
def DNSRecord.owned (record : DNSRecord) (owner : String) : Bool :=
  recordIsA record && record.carries owner

/-! ### The provider -/

instance : Keyed DNSRecord String := ⟨DNSRecord.id⟩

@[simp] theorem key_dnsRecord (record : DNSRecord) : key record = record.id := rfl

structure Zone where
  records : Table DNSRecord
  unique : ∀ record ∈ records, ∀ record' ∈ records, recordIsA record = true →
    recordIsA record' = true → address record = address record' → record = record'

inductive Request
  | create (record : DNSRecord)
  | update (id : String) (record : DNSRecord)
  | delete (id : String)
  deriving DecidableEq, Repr

/-- The provider chooses the identifiers of records. -/
structure Provider where
  assign : Zone → DNSRecord → String
  fresh : ∀ (zone : Zone) (record : DNSRecord), zone.records.find? (assign zone record) = none

/-- What the provider stores of the record that a request carries. -/
def stored (id : String) (record : DNSRecord) : DNSRecord :=
  { record with id, type := "A" }

namespace Zone

/-- Another A record than the one with this identifier has the address. -/
def taken (zone : Zone) (id : String) (record : DNSRecord) : Bool :=
  zone.records.any fun other =>
    other.id ≠ id && recordIsA other && address other = address record

theorem taken_eq_false {zone : Zone} {id : String} {record : DNSRecord} :
    zone.taken id record = false ↔ ∀ other ∈ zone.records, other.id ≠ id →
      recordIsA other = true → address other ≠ address record := by
  simp [taken]

/-- The zone with the record stored under the identifier. -/
def put (zone : Zone) (id : String) (record : DNSRecord) (h : zone.taken id record = false) :
    Zone where
  records := zone.records.upsert (stored id record)
  unique := by
    have hfree := taken_eq_false.mp h
    intro r hr r' hr' hA hA' haddress
    rcases Table.mem_upsert.mp hr with rfl | ⟨hmem, hne⟩
    · rcases Table.mem_upsert.mp hr' with rfl | ⟨hmem', hne'⟩
      · rfl
      · exact absurd haddress.symm (hfree r' hmem' hne' hA')
    · rcases Table.mem_upsert.mp hr' with rfl | ⟨hmem', hne'⟩
      · exact absurd haddress (hfree r hmem hne hA)
      · exact zone.unique r hmem r' hmem' hA hA' haddress

/-- The zone without the record with the identifier. -/
def without (zone : Zone) (id : String) : Zone where
  records := zone.records.delete fun record => record.id = id
  unique := by
    intro r hr r' hr' hA hA' haddress
    exact zone.unique r (Table.mem_delete.mp hr).1 r' (Table.mem_delete.mp hr').1 hA hA' haddress

/-- What the provider does with a request, or why it refuses it. -/
def apply (provider : Provider) (zone : Zone) : Request → Except String Zone
  | .create record =>
    let id := provider.assign zone record
    if h : zone.taken id record = false then .ok (zone.put id record h)
    else .error "An identical record already exists."
  | .update id record =>
    match zone.records.find? id with
    | none => .error "Record does not exist."
    | some _ =>
      if h : zone.taken id record = false then .ok (zone.put id record h)
      else .error "An identical record already exists."
  | .delete id =>
    match zone.records.find? id with
    | none => .error "Record does not exist."
    | some _ => .ok (zone.without id)

end Zone

/-- What becomes of a request and its answer: the answer arrives, the request is carried out but
the answer is lost, or the request does not get through. -/
inductive Reply
  | served
  | lost
  | dropped
  deriving DecidableEq, Repr

/-- The zone, and the requests sent to change it. -/
structure Session where
  zone : Zone
  made : List Request

inductive ReconcileError
  | invalid (message : String)
  | refusing (name recordID typeLabel owner : String)
  | call (message : String)
  deriving DecidableEq, Repr

def ReconcileError.message : ReconcileError → String
  | invalid message => message
  | refusing name recordID typeLabel owner =>
    "refusing to manage DNS name " ++ name ++ " because record " ++ recordID ++ " (" ++ typeLabel ++
      ") is not owned by " ++ owner
  | call message => message

/-- An error, and how far the session had come. -/
abbrev Failure := ReconcileError × Session

/-- `createRecord`, `updateRecord` and `deleteRecord`; the listing was the first call. -/
def Session.issue (provider : Provider) (replies : Nat → Reply) (s : Session) (request : Request) :
    Except Failure Session :=
  let made := s.made ++ [request]
  match s.zone.apply provider request with
  | .error message => .error (.call message, ⟨s.zone, made⟩)
  | .ok zone =>
    match replies made.length with
    | .served => .ok ⟨zone, made⟩
    | .lost => .error (.call "transport error", ⟨zone, made⟩)
    | .dropped => .error (.call "transport error", ⟨s.zone, made⟩)

/-! ### Reconciling -/

/-- An entry of a map of records. -/
structure MapEntry where
  key : RecordKey
  record : DNSRecord
  deriving DecidableEq, Repr

instance : Keyed MapEntry RecordKey := ⟨MapEntry.key⟩

@[simp] theorem key_mapEntry (entry : MapEntry) : key entry = entry.key := rfl

/-- The defaults a desired record gets; the zone is used for authoritative DNS only. -/
def withDefaults (record : DNSRecord) : DNSRecord :=
  { record with
    ttl := if record.ttl = 0 then 60 else record.ttl
    proxied := false }

def wantRecord (wanted : Table MapEntry) (record : DNSRecord) :
    Except ReconcileError (Table MapEntry) :=
  if record.name = "" ∨ record.content = "" ∨
      Text.hasPrefix record.comment managedRecordPrefix = false then
    .error (.invalid "invalid managed DNS record")
  else .ok (wanted.upsert ⟨recordKey record, withDefaults record⟩)

/-- The map of desired records. -/
def wantedRecords (desired : List DNSRecord) : Except ReconcileError (Table MapEntry) :=
  desired.foldlM wantRecord ∅

/-- The map of the owner's records. -/
def managedRecords (existing : List DNSRecord) (owner : String) : Table MapEntry :=
  existing.foldl (fun managed record =>
    if record.owned owner then managed.upsert ⟨recordKey record, record⟩ else managed) ∅

/-- The record keeps the owner from managing its name. -/
def conflicts (owner : String) (desired record : DNSRecord) : Bool :=
  canonicalRecordName record.name = canonicalRecordName desired.name && !record.owned owner

/-- What a desired record needs, given the listing. -/
def neededRequest (managed : Table MapEntry) (entry : MapEntry) : Option Request :=
  match managed.find? entry.key with
  | some existing =>
    if existing.record.ttl ≠ entry.record.ttl ∨ existing.record.proxied ≠ entry.record.proxied then
      some (.update existing.record.id entry.record)
    else none
  | none => some (.create entry.record)

/-- One pass of the loop over the desired records. -/
def reconcileWanted (provider : Provider) (replies : Nat → Reply) (owner : String)
    (existing : List DNSRecord) (managed : Table MapEntry) (s : Session) (entry : MapEntry) :
    Except Failure Session :=
  match existing.find? (conflicts owner entry.record) with
  | some record =>
    .error (.refusing entry.record.name record.id (recordTypeLabel record) owner, s)
  | none =>
    match neededRequest managed entry with
    | some request => s.issue provider replies request
    | none => .ok s

/-- One pass of the loop over the owner's records. -/
def reconcileManaged (provider : Provider) (replies : Nat → Reply) (wanted : Table MapEntry)
    (s : Session) (entry : MapEntry) : Except Failure Session :=
  match wanted.find? entry.key with
  | some _ => .ok s
  | none => s.issue provider replies (.delete entry.record.id)

/-- An order in which a loop ranges over a map. -/
structure Iteration where
  order : List MapEntry → List MapEntry
  perm : ∀ entries, (order entries).Perm entries

/-- What a call runs into: its answers and the orders of its two loops. -/
structure Surroundings where
  replies : Nat → Reply
  wantedOrder : Iteration
  managedOrder : Iteration

/-- `Reconcile` -/
def reconcile (provider : Provider) (around : Surroundings) (token : Except String String)
    (zoneID owner : String) (desired : List DNSRecord) (zone : Zone) : Except Failure Session := do
  let s : Session := ⟨zone, []⟩
  require (Text.trimSpace zoneID ≠ "") (.invalid "Cloudflare zone ID is required", s)
  require (Text.trimSpace owner ≠ "") (.invalid "DNS record owner is required", s)
  let token ← token.mapError fun message => (.invalid message, s)
  require (token ≠ "") (.invalid "Cloudflare API token is empty", s)
  require (around.replies 0 = .served) (.call "transport error", s)
  let existing := zone.records.rows
  let wanted ← (wantedRecords desired).mapError fun error => (error, s)
  let managed := managedRecords existing owner
  let s ← (around.wantedOrder.order wanted.rows).foldlM
    (reconcileWanted provider around.replies owner existing managed) s
  (around.managedOrder.order managed.rows).foldlM
    (reconcileManaged provider around.replies wanted) s

end SimpleCdn.Cloudflare
